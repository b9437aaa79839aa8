import CipherModes.Proofs.Toml.Texts
import CipherModes.Toml.Document

/-!
# Values that come back

A number, a truth, a text or an array of texts is read back from the front of
the input, and so is the line in which it stands under a plain key.
-/

set_option autoImplicit false

namespace CipherModes.Toml

variable {char : Char} {chars digits rest : List Char} {number depth : Nat}

/-! ## Numbers -/

theorem isDigit_of_mem_toDigits (member : char ∈ Nat.toDigits 10 number) : isDigit char = true := by
  have digit := Nat.isDigit_of_mem_toDigits (by decide) (by decide) member
  simpa [Char.isDigit, isDigit, Char.le_def] using digit

theorem digitValue_of_isDigit (digit : isDigit char = true) :
    digitValue char = char.toNat - '0'.toNat := by
  rw [digitValue, if_pos digit]

theorem isDigitOf_of_isDigit (digit : isDigit char = true) : isDigitOf 10 char = true := by
  rw [isDigitOf, digitValue_of_isDigit digit, decide_eq_true_eq]
  simp only [isDigit, Bool.and_eq_true, decide_eq_true_eq] at digit
  have below : char.toNat ≤ '9'.toNat := digit.2
  have nine : '9'.toNat = '0'.toNat + 9 := rfl
  omega

theorem ungroup?_digits (nonempty : digits ≠ []) (all : ∀ digit ∈ digits, isDigit digit = true) :
    ungroup? 10 digits = some digits := by
  induction digits with
  | nil => exact absurd rfl nonempty
  | cons digit rest ih =>
      obtain ⟨first, others⟩ := List.forall_mem_cons.mp all
      have valid := isDigitOf_of_isDigit first
      cases rest with
      | nil => rw [ungroup?, if_pos valid]
      | cons next rest =>
          have plain : next ≠ '_' := by
            rintro rfl
            exact absurd (others _ (.head _)) (by decide)
          rw [ungroup?, if_pos valid, ih (List.cons_ne_nil _ _) others]
          · rfl
          · simp
          · simp [plain]

theorem ofDigits_eq (all : ∀ digit ∈ digits, isDigit digit = true) (value : Nat) :
    digits.foldl (fun value digit => 10 * value + digitValue digit) value =
      Nat.ofDigitChars 10 digits value := by
  induction digits generalizing value with
  | nil => rfl
  | cons digit rest ih =>
      obtain ⟨first, others⟩ := List.forall_mem_cons.mp all
      rw [List.foldl_cons, ih others, digitValue_of_isDigit first, Nat.ofDigitChars_cons]

theorem ofDigits_toDigits (number : Nat) : ofDigits 10 (Nat.toDigits 10 number) = number :=
  (ofDigits_eq (fun _ => isDigit_of_mem_toDigits) 0).trans
    (Nat.ofDigitChars_toDigits (by decide) (by decide))

/-- Only zero is written with a zero in front. -/
theorem head?_toDigits (positive : 0 < number) : (Nat.toDigits 10 number).head? ≠ some '0' := by
  induction number using Nat.strongRecOn with
  | ind number ih =>
      by_cases small : number < 10
      · rw [Nat.toDigits_of_lt_base small]
        simpa using Nat.ne_of_gt positive
      · have shorter := ih (number / 10) (by omega) (by omega)
        rw [Nat.toDigits_of_base_le (by decide) (by omega)]
        cases front : Nat.toDigits 10 (number / 10) with
        | nil => exact absurd front Nat.toDigits_ne_nil
        | cons digit digits =>
            rw [front] at shorter
            exact shorter

theorem plainDigits?_toDigits (number : Nat) :
    plainDigits? (Nat.toDigits 10 number) = some (Nat.toDigits 10 number) := by
  rw [plainDigits?, ungroup?_digits Nat.toDigits_ne_nil fun _ => isDigit_of_mem_toDigits]
  refine if_neg ?_
  rw [Bool.and_eq_true, decide_eq_true_eq, beq_iff_eq]
  intro ⟨long, zero⟩
  cases number with
  | zero => exact absurd long (by decide)
  | succ number => exact head?_toDigits (Nat.succ_pos number) zero

theorem splitSign_digits (all : ∀ digit ∈ digits, isDigit digit = true) :
    splitSign digits = (false, digits) := by
  unfold splitSign
  split
  · exact absurd (all _ (.head _)) (by decide)
  · exact absurd (all _ (.head _)) (by decide)
  · rfl

theorem integer?_toDigits (small : number < 0x8000000000000000) :
    integer? (Nat.toDigits 10 number) = some (number : Int) := by
  have all : ∀ digit ∈ Nat.toDigits 10 number, isDigit digit = true :=
    fun _ => isDigit_of_mem_toDigits
  have decimal := plainDigits?_toDigits number
  have value := ofDigits_toDigits number
  generalize Nat.toDigits 10 number = digits at all decimal value ⊢
  unfold integer?
  split
  · exact absurd (all _ (.tail _ (.head _))) (by decide)
  · exact absurd (all _ (.tail _ (.head _))) (by decide)
  · exact absurd (all _ (.tail _ (.head _))) (by decide)
  · simp only [splitSign_digits all, decimal]
    rw [Option.bind_eq_bind, Option.bind_some, value, checkedInteger?, if_pos]
    · rfl
    · rw [if_neg Bool.false_ne_true, Int.ofNat_eq_natCast]
      exact ⟨by omega, by omega⟩

theorem takeWhile_append_of_stop {p : Char → Bool} (all : ∀ char ∈ chars, p char = true)
    (ends : ∀ char ∈ rest.head?, p char = false) :
    (chars ++ rest).takeWhile p = chars ∧ (chars ++ rest).dropWhile p = rest := by
  rw [List.takeWhile_append_of_pos all, List.dropWhile_append_of_pos all]
  cases rest with
  | nil => simp
  | cons first rest => simp [ends first rfl]

theorem readScalar_token {token : List Char} {value : Value}
    (all : ∀ char ∈ token, isTokenChar char = true) (scalar : scalar? token = some value)
    (rest : List Char) : readScalar (token ++ '\n' :: rest) = some (value, '\n' :: rest) := by
  have ends : ∀ char ∈ ('\n' :: rest).head?, isTokenChar char = false := by
    intro char member
    cases member
    rfl
  obtain ⟨taken, dropped⟩ := takeWhile_append_of_stop all ends
  rw [readScalar, taken, dropped, scalar]
  cases isDate token <;> rfl

theorem scalar?_toDigits (small : number < 0x8000000000000000) :
    scalar? (Nat.toDigits 10 number) = some (.integer number) := by
  have first : ∀ char ∈ (Nat.toDigits 10 number).head?, isDigit char = true :=
    fun _ member => isDigit_of_mem_toDigits (List.mem_of_mem_head? member)
  rw [scalar?, if_neg, if_neg, integer?_toDigits small]
  · intro same
    rw [beq_iff_eq.mp same] at first
    exact absurd (first 'f' rfl) (by decide)
  · intro same
    rw [beq_iff_eq.mp same] at first
    exact absurd (first 't' rfl) (by decide)

theorem readValue_of_token (front : ∀ char ∈ chars.head?, isTokenChar char = true)
    (depth : Nat) : readValue depth chars = readScalar chars := by
  unfold readValue
  split
  · exact absurd (front _ rfl) (by decide)
  · exact absurd (front _ rfl) (by decide)
  · exact absurd (front _ rfl) (by decide)
  · exact absurd (front _ rfl) (by decide)
  · rfl

theorem readValue_number (small : number < 0x8000000000000000) (depth : Nat) (rest : List Char) :
    readValue depth (Nat.toDigits 10 number ++ '\n' :: rest) =
      some (.integer number, '\n' :: rest) := by
  have all : ∀ char ∈ Nat.toDigits 10 number, isTokenChar char = true := by
    intro char member
    simp only [isTokenChar, isDigit_of_mem_toDigits member, Bool.true_or]
  rw [readValue_of_token, readScalar_token all (scalar?_toDigits small)]
  intro char member
  rw [List.head?_append, Option.or_of_isSome (by simp)] at member
  exact all char (List.mem_of_mem_head? member)

theorem readValue_truth (value : Bool) (depth : Nat) (rest : List Char) :
    readValue depth ((toString value).toList ++ '\n' :: rest) =
      some (.truth value, '\n' :: rest) := by
  cases value with
  | false =>
      rw [readValue_of_token]
      · rfl
      · intro char member
        cases member
        decide
  | true =>
      rw [readValue_of_token]
      · rfl
      · intro char member
        cases member
        decide

/-! ## Texts -/

theorem exists_head_writeText (text : List Char) :
    ∃ char tail, writeText text = char :: tail ∧ (char = '"' ∨ char = '\'') := by
  cases form : Form.ofText text <;> simp [writeText, form]

theorem readValue_text (text : String) (depth : Nat) (quote : rest.head? ≠ some '"')
    (mark : rest.head? ≠ some '\'') :
    readValue depth (writeText text.toList ++ rest) = some (.text text, rest) := by
  have read := readText_writeText text.toList quote mark
  obtain ⟨char, tail, front, quoted⟩ := exists_head_writeText text.toList
  rw [front] at read ⊢
  rcases quoted with rfl | rfl
  · rw [List.cons_append] at read ⊢
    rw [readValue, read]
    simp
  · rw [List.cons_append] at read ⊢
    rw [readValue, read]
    simp

theorem head?_writeText_append (text rest : List Char) {other : Char} (quote : other ≠ '"')
    (mark : other ≠ '\'') : (writeText text ++ rest).head? ≠ some other := by
  obtain ⟨char, tail, front, quoted⟩ := exists_head_writeText text
  rw [front, List.cons_append, List.head?_cons, Ne, Option.some_inj]
  rcases quoted with rfl | rfl
  · exact quote.symm
  · exact mark.symm

/-! ## Arrays of texts -/

theorem skipFiller_of_skipSpace (skipped : skipSpace chars = rest) (comment : rest.head? ≠ some '#') :
    skipFiller chars = rest := by
  rw [skipFiller, skipLines, skipped]
  split
  · exact absurd rfl comment
  · rfl

theorem skipSpace_writeText (text rest : List Char) :
    skipSpace (writeText text ++ rest) = writeText text ++ rest := by
  obtain ⟨char, tail, front, quoted⟩ := exists_head_writeText text
  rw [front, List.cons_append]
  rcases quoted with rfl | rfl <;> rfl

theorem skipFiller_writeText (text rest : List Char) :
    skipFiller (writeText text ++ rest) = writeText text ++ rest :=
  skipFiller_of_skipSpace (skipSpace_writeText text rest)
    (head?_writeText_append text rest (by decide) (by decide))

section

variable {read : Reader Value} {item : Value} {items : List Value} {limit : Nat}
  {front more last : List Char}

theorem readItems_comma (filled : skipFiller chars = front) (bracket : front.head? ≠ some ']')
    (reads : read front = some (item, more)) (comma : skipFiller more = ',' :: rest)
    (others : readItems read limit rest = some (items, last)) :
    readItems read (limit + 1) chars = some (item :: items, last) := by
  rw [readItems, filled]
  split
  · exact absurd rfl bracket
  · simp [reads, comma, others]

theorem readItems_single (filled : skipFiller chars = front) (bracket : front.head? ≠ some ']')
    (reads : read front = some (item, more)) (ends : skipFiller more = ']' :: rest) :
    readItems read (limit + 1) chars = some ([item], rest) := by
  rw [readItems, filled]
  split
  · exact absurd rfl bracket
  · simp [reads, ends]

end

/-- A line of an array of several texts. -/
def textLine (text : String) : List Char := "    ".toList ++ writeText text.toList ++ [',', '\n']

theorem readItems_lines (texts : List String) {limit : Nat} (enough : texts.length < limit)
    (depth : Nat) (rest : List Char) :
    readItems (readValue depth) limit ('\n' :: (texts.flatMap textLine ++ ']' :: rest)) =
      some (texts.map .text, rest) := by
  induction texts generalizing limit with
  | nil =>
      obtain ⟨limit, rfl⟩ := Nat.exists_eq_succ_of_ne_zero (Nat.ne_of_gt enough)
      rfl
  | cons text texts ih =>
      obtain ⟨limit, rfl⟩ := Nat.exists_eq_succ_of_ne_zero (Nat.ne_of_gt (Nat.zero_lt_of_lt enough))
      have others := ih (Nat.lt_of_succ_lt_succ enough)
      rw [List.flatMap_cons, textLine, List.append_assoc, List.append_assoc, List.append_assoc]
      generalize texts.flatMap textLine ++ ']' :: rest = lines at others ⊢
      have filled : skipFiller ('\n' :: ("    ".toList ++
          (writeText text.toList ++ ',' :: '\n' :: lines))) =
            writeText text.toList ++ ',' :: '\n' :: lines :=
        skipFiller_of_skipSpace (skipSpace_writeText _ _)
          (head?_writeText_append _ _ (by decide) (by decide))
      exact readItems_comma filled (head?_writeText_append _ _ (by decide) (by decide))
        (readValue_text text depth (by simp) (by simp)) rfl others

theorem length_le_flatMap_textLine (texts : List String) :
    texts.length ≤ (texts.flatMap textLine).length := by
  induction texts with
  | nil => exact Nat.le_refl 0
  | cons text texts ih =>
      rw [List.flatMap_cons, List.length_append, List.length_cons, textLine, List.length_append]
      simp only [List.length_cons]
      omega

/-! ## Lines -/

theorem skipBlanks_of_front (front : ∀ char ∈ chars.head?, isBlank char = false) :
    skipBlanks chars = chars := by
  cases chars with
  | nil => rfl
  | cons char chars => rw [skipBlanks, List.dropWhile_cons_of_neg (by simp [front char rfl])]

/-- A key of letters, digits, underscores and dashes. -/
structure Plain (key : String) : Prop where
  nonempty : key.toList ≠ []
  bare : ∀ char ∈ key.toList, isBareKeyChar char = true

instance (key : String) : Decidable (Plain key) :=
  decidable_of_iff (key.toList.isEmpty = false ∧ key.toList.all isBareKeyChar = true)
    ⟨fun ⟨nonempty, bare⟩ => ⟨List.isEmpty_eq_false_iff.mp nonempty, List.all_eq_true.mp bare⟩,
      fun plain => ⟨List.isEmpty_eq_false_iff.mpr plain.nonempty, List.all_eq_true.mpr plain.bare⟩⟩

namespace Plain

variable {key : String}

theorem exists_front (plain : Plain key) :
    ∃ char tail, key.toList = char :: tail ∧ isBareKeyChar char = true := by
  cases chars : key.toList with
  | nil => exact absurd chars plain.nonempty
  | cons char tail => exact ⟨char, tail, rfl, plain.bare char (chars ▸ .head _)⟩

theorem head_ne (plain : Plain key) (rest : List Char) (other : isBareKeyChar char = false) :
    (key.toList ++ rest).head? ≠ some char := by
  obtain ⟨first, tail, front, bare⟩ := plain.exists_front
  rw [front, List.cons_append, List.head?_cons]
  rintro same
  cases same
  cases bare.symm.trans other

theorem skipBlanks_append (plain : Plain key) (rest : List Char) :
    skipBlanks (key.toList ++ rest) = key.toList ++ rest := by
  refine skipBlanks_of_front fun char member => ?_
  cases blank : isBlank char with
  | false => rfl
  | true =>
      rw [isBlank, Bool.or_eq_true, beq_iff_eq, beq_iff_eq] at blank
      rcases blank with rfl | rfl
      · exact absurd member (plain.head_ne rest rfl)
      · exact absurd member (plain.head_ne rest rfl)

theorem afterLine_append (plain : Plain key) (rest : List Char) :
    afterLine (key.toList ++ rest) = none := by
  have comment := plain.head_ne rest (rfl : isBareKeyChar '#' = false)
  have feed := plain.head_ne rest (rfl : isBareKeyChar '\n' = false)
  have back := plain.head_ne rest (rfl : isBareKeyChar '\r' = false)
  have nonempty : key.toList ++ rest ≠ [] := by simp [plain.nonempty]
  rw [afterLine, plain.skipBlanks_append]
  generalize key.toList ++ rest = chars at comment feed back nonempty ⊢
  have kept : skipComment chars = chars := by
    unfold skipComment
    split
    · exact absurd rfl comment
    · rfl
  rw [kept]
  unfold afterLineEnd
  split
  · exact absurd rfl nonempty
  · exact absurd rfl feed
  · exact absurd rfl back
  · rfl

theorem readKeyPart_append (plain : Plain key)
    (ends : ∀ char ∈ rest.head?, isBareKeyChar char = false) :
    readKeyPart (key.toList ++ rest) = some (key.toList, rest) := by
  obtain ⟨taken, dropped⟩ := takeWhile_append_of_stop plain.bare ends
  rw [readKeyPart, taken, dropped]
  split
  · rename_i empty
    exact absurd empty plain.nonempty
  · rfl

theorem readKeyParts_last (plain : Plain key) (limit : Nat)
    (ends : ∀ char ∈ rest.head?, isBareKeyChar char = false) (dot : (skipBlanks rest).head? ≠ some '.') :
    readKeyParts (limit + 1) (key.toList ++ rest) = some ([key], skipBlanks rest) := by
  rw [readKeyParts, plain.skipBlanks_append, plain.readKeyPart_append ends]
  simp only [Option.bind_eq_bind, Option.bind_some]
  split
  · rename_i found
    exact absurd (congrArg List.head? found) dot
  · rw [String.ofList_toList]
    rfl

theorem readKeyParts_dot (plain : Plain key) {limit : Nat} {parts : List String}
    {last : List Char} (others : readKeyParts limit rest = some (parts, last)) :
    readKeyParts (limit + 1) (key.toList ++ '.' :: rest) = some (key :: parts, last) := by
  have ends : ∀ char ∈ ('.' :: rest).head?, isBareKeyChar char = false := by
    intro char member
    cases member
    rfl
  have dot : skipBlanks ('.' :: rest) = '.' :: rest := rfl
  rw [readKeyParts, plain.skipBlanks_append, plain.readKeyPart_append ends]
  simp only [Option.bind_eq_bind, Option.bind_some, dot, others]
  rw [String.ofList_toList]
  rfl

theorem readKey_append (plain : Plain key) (rest : List Char) :
    readKey (key.toList ++ ' ' :: '=' :: rest) = some (([], key), '=' :: rest) := by
  have ends : ∀ char ∈ (' ' :: '=' :: rest).head?, isBareKeyChar char = false := by
    intro char member
    cases member
    rfl
  rw [readKey, keyLimit, plain.readKeyParts_last 78 ends (by simp [skipBlanks, isBlank])]
  rfl

/-- A line with a value under a plain key. -/
theorem readStatement_line (plain : Plain key) {written : List Char} {value : Value}
    (solid : ∀ char ∈ (written ++ '\n' :: rest).head?, isBlank char = false)
    (reads : readValue nestingLimit (written ++ '\n' :: rest) = some (value, '\n' :: rest)) :
    readStatement (key.toList ++ ' ' :: '=' :: ' ' :: (written ++ '\n' :: rest)) =
      some (some (.pair [] key value), rest) := by
  have bracket := plain.head_ne (' ' :: '=' :: ' ' :: (written ++ '\n' :: rest))
    (rfl : isBareKeyChar '[' = false)
  have front : skipBlanks (' ' :: (written ++ '\n' :: rest)) = written ++ '\n' :: rest :=
    skipBlanks_of_front solid
  have pair : readPair (readValue nestingLimit)
      (key.toList ++ ' ' :: '=' :: ' ' :: (written ++ '\n' :: rest)) =
        some (([], key, value), '\n' :: rest) := by
    rw [readPair, plain.readKey_append]
    simp only [Option.bind_eq_bind, Option.bind_some, after?, beq_self_eq_true, if_true, front,
      reads]
    rfl
  rw [readStatement, plain.skipBlanks_append]
  split
  · rename_i found
    exact absurd (congrArg List.head? found) bracket
  · rw [plain.afterLine_append, pair]
    rfl

end Plain

/-- A header with the parts of a key between single brackets. -/
theorem readStatement_header {key : String} {path : List String} {written : List Char}
    (single : (written ++ ']' :: '\n' :: rest).head? ≠ some '[')
    (reads : readKeyParts keyLimit (written ++ ']' :: '\n' :: rest) =
      some (path ++ [key], ']' :: '\n' :: rest)) :
    readStatement ('[' :: (written ++ ']' :: '\n' :: rest)) =
      some (some (.header path key), rest) := by
  have header : readHeader (written ++ ']' :: '\n' :: rest) =
      some (.header path key, '\n' :: rest) := by
    unfold readHeader
    split
    · rename_i found
      exact absurd (congrArg List.head? found) single
    · rw [readKey, reads]
      simp [after?]
  change (readHeader (written ++ ']' :: '\n' :: rest)).bind _ = _
  rw [header]
  rfl

theorem readStatement_empty (rest : List Char) : readStatement ('\n' :: rest) = some (none, rest) :=
  rfl

/-- The lines are read as the statements, given that many steps. -/
def ReadsLines (count : Nat) (chars : List Char) (statements : List Statement) : Prop :=
  ∀ limit, count ≤ limit → readStatements limit chars = some statements

theorem ReadsLines.nil : ReadsLines 0 [] [] := by
  intro limit _
  cases limit <;> rfl

theorem ReadsLines.cons {count : Nat} {statement : Option Statement} {statements : List Statement}
    (reads : readStatement chars = some (statement, rest)) (nonempty : chars ≠ [])
    (others : ReadsLines count rest statements) :
    ReadsLines (count + 1) chars (statement.toList ++ statements) := by
  intro limit enough
  obtain ⟨limit, rfl⟩ := Nat.exists_eq_add_of_le' (Nat.le_trans (Nat.le_add_left 1 count) enough)
  rw [readStatements, reads]
  · simp only [Option.bind_eq_bind, Option.bind_some, others limit (Nat.le_of_succ_le_succ enough)]
    rfl
  · exact nonempty

end CipherModes.Toml
