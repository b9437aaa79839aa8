import CipherModes.Toml.Text
import Mathlib.Tactic.IntervalCases

/-!
# Texts that come back

Whatever form is chosen for a text, reading what was written gives the text and
stops where it ends. Between three quotes the reader looks ahead for the end, so
quotes that may still belong to it count as pending.
-/

set_option autoImplicit false

namespace CipherModes.Toml

variable {char next : Char} {text chars rest tail : List Char}

/-! ## Characters -/

theorem isPlain_of_not_isControl (shown : isControl char = false) : isPlain char = true := by
  simp only [isControl, isPlain, Bool.or_eq_false_iff, Bool.and_eq_false_iff, decide_eq_false_iff_not,
    Char.not_lt, bne_eq_false_iff_eq, beq_eq_false_iff_ne, Bool.or_eq_true, beq_iff_eq,
    Bool.and_eq_true, decide_eq_true_eq] at shown ⊢
  rcases shown.1 with printed | tab
  · exact .inr ⟨printed, shown.2⟩
  · exact .inl tab

theorem codePoint?_fourDigits :
    ∀ value < 128, codePoint? (fourDigits value) = some (Char.ofNat value) := by
  decide +kernel

theorem toNat_lt_of_isControl (control : isControl char = true) : char.toNat < 128 := by
  simp only [isControl, Bool.or_eq_true, Bool.and_eq_true, decide_eq_true_eq, beq_iff_eq] at control
  rcases control with ⟨low, -⟩ | delete
  · have below : char.toNat < ' '.toNat := low
    exact Nat.lt_trans below (by decide)
  · omega

/-- A character is written as it is, or as an escape that is read back as it. -/
inductive Escape (char : Char) : List Char → Prop
  | shown (plain : isPlain char = true) (backslash : char ≠ '\\') (feed : char ≠ '\n')
      (back : char ≠ '\r') : Escape char [char]
  | escaped {letter : Char} {tail : List Char}
      (line : ∀ rest, skipBreak (letter :: tail ++ rest) = none)
      (read : ∀ rest, readEscape (letter :: tail ++ rest) = some (char, rest)) :
      Escape char ('\\' :: letter :: tail)

theorem escape_escape (char : Char) : Escape char (escape char) := by
  unfold escape
  split
  case h_7 backspace tab feed page back backslash =>
    split
    case isTrue control =>
      have digits := codePoint?_fourDigits char.toNat (toNat_lt_of_isControl control)
      rw [Char.ofNat_toNat] at digits
      refine .escaped (fun _ => rfl) fun rest => ?_
      exact congrArg (Option.map (·, rest)) digits
    case isFalse shown =>
      exact .shown (isPlain_of_not_isControl (by simpa using shown)) backslash feed back
  all_goals exact .escaped (fun _ => rfl) fun _ => rfl

/-! ## One line -/

theorem readBasic_close (rest : List Char) : readBasic ('"' :: rest) = some ([], rest) := by
  rw [readBasic]

theorem readBasic_escape (read : readEscape chars = some (char, rest)) :
    readBasic ('\\' :: chars) = (readBasic rest).cons char := by
  rw [readBasic]
  split
  · rename_i missing
    cases missing.symm.trans read
  · rename_i found
    cases found.symm.trans read
    rfl

theorem readBasic_plain (plain : isPlain char = true) (quote : char ≠ '"')
    (backslash : char ≠ '\\') (rest : List Char) :
    readBasic (char :: rest) = (readBasic rest).cons char := by
  rw [readBasic, if_pos plain]
  · exact quote
  · exact backslash

theorem readBasic_body (text rest : List Char) :
    readBasic (basicBody text ++ '"' :: rest) = some (text, rest) := by
  induction text with
  | nil => exact readBasic_close rest
  | cons char text ih =>
      rw [basicBody, List.flatMap_cons, List.append_assoc, ← basicBody]
      by_cases quote : char = '"'
      · subst quote
        rw [if_pos rfl, List.cons_append, List.cons_append, readBasic_escape rfl,
          List.nil_append, ih]
        rfl
      · have escapes := escape_escape char
        rw [if_neg quote]
        generalize escape char = written at escapes ⊢
        cases escapes with
        | shown plain backslash =>
            rw [List.singleton_append, readBasic_plain plain quote backslash, ih]
            rfl
        | escaped line read =>
            rw [List.cons_append, readBasic_escape (read _), ih]
            rfl

theorem readLiteral_text (fits : Form.literal.fits text = true) (rest : List Char) :
    readLiteral (text ++ '\'' :: rest) = some (text, rest) := by
  induction text with
  | nil => rfl
  | cons char text ih =>
      simp only [Form.fits, List.all_cons, Bool.and_eq_true, Bool.not_eq_true', bne_iff_ne] at fits ih
      rw [List.cons_append, readLiteral, if_pos (isPlain_of_not_isControl fits.1.1), ih fits.2]
      · rfl
      · exact fits.1.2

/-! ## Several lines -/

theorem replicate_append_cons (count : Nat) (char : Char) (chars : List Char) :
    List.replicate count char ++ char :: chars = List.replicate (count + 1) char ++ chars := by
  rw [List.replicate_succ', List.append_assoc]
  rfl

/-- Marks that another character ends belong to the text. -/
theorem read_pending {read : List Char → Reading} {mark : Char} {run : Nat}
    (step : ∀ chars : List Char, chars.take 2 ≠ [mark, mark] →
      read (mark :: chars) = (read chars).cons mark)
    (few : run ≤ 2) (ends : next ≠ mark) (reads : read (next :: chars) = some (text, rest)) :
    read (List.replicate run mark ++ next :: chars) =
      some (List.replicate run mark ++ text, rest) := by
  induction run with
  | zero => exact reads
  | succ run ih =>
      rw [List.replicate_succ, List.cons_append, step, ih (by omega)]
      · rfl
      · have fewer : run ≤ 1 := by omega
        interval_cases run <;> simp [ends]

/-! ### With escapes -/

theorem readMultilineBasic_escape (line : skipBreak chars = none)
    (read : readEscape chars = some (char, rest)) :
    readMultilineBasic ('\\' :: chars) = (readMultilineBasic rest).cons char := by
  rw [readMultilineBasic]
  split
  · rename_i found
    cases found.symm.trans line
  · split
    · rename_i missing
      cases missing.symm.trans read
    · rename_i found
      cases found.symm.trans read
      rfl

theorem readMultilineBasic_plain (plain : (isPlain char || char == '\n') = true)
    (quote : char ≠ '"') (backslash : char ≠ '\\') (back : char ≠ '\r') (rest : List Char) :
    readMultilineBasic (char :: rest) = (readMultilineBasic rest).cons char := by
  rw [readMultilineBasic, if_pos plain]
  all_goals simp [quote, backslash, back]

theorem readMultilineBasic_quote (chars : List Char) (other : chars.take 2 ≠ ['"', '"']) :
    readMultilineBasic ('"' :: chars) = (readMultilineBasic chars).cons '"' := by
  rw [readMultilineBasic, if_pos (by decide)]
  · exact fun _ _ same => other (same ▸ rfl)
  · exact fun _ _ same => other (same ▸ rfl)
  · exact fun _ _ same => other (same ▸ rfl)
  · exact fun _ same => absurd same (by decide)
  · decide

theorem readMultilineBasic_close {run : Nat} (few : run ≤ 2) (ends : rest.head? ≠ some '"') :
    readMultilineBasic (List.replicate run '"' ++ '"' :: '"' :: '"' :: rest) =
      some (List.replicate run '"', rest) := by
  have alone : ∀ tail, rest ≠ '"' :: tail := fun _ same => ends (same ▸ rfl)
  interval_cases run <;> simp only [List.replicate, List.cons_append, List.nil_append]
  · rw [readMultilineBasic]
    · exact fun _ => alone _
    · exact alone
  · rw [readMultilineBasic]
    exact alone
  · rw [readMultilineBasic]

/-- By induction on the text, with the quotes before it that may still turn out to end it. -/
theorem readMultilineBasic_body {run : Nat} (few : run ≤ 2) (text : List Char)
    (ends : rest.head? ≠ some '"') :
    readMultilineBasic
        (List.replicate run '"' ++ (multilineBody run text ++ '"' :: '"' :: '"' :: rest)) =
      some (List.replicate run '"' ++ text, rest) := by
  induction text generalizing run with
  | nil => rw [multilineBody, List.nil_append, List.append_nil, readMultilineBasic_close few ends]
  | cons char text ih =>
      have later : readMultilineBasic (multilineBody 0 text ++ '"' :: '"' :: '"' :: rest) =
          some (text, rest) := ih (Nat.zero_le 2)
      rw [multilineBody]
      by_cases quote : char = '"'
      · subst quote
        rw [if_pos rfl]
        by_cases full : run = 2
        · rw [if_pos full, List.cons_append, List.cons_append]
          refine read_pending readMultilineBasic_quote few (by decide) ?_
          rw [readMultilineBasic_escape rfl rfl, later]
          rfl
        · rw [if_neg full, List.cons_append, replicate_append_cons, replicate_append_cons]
          exact ih (by omega)
      · rw [if_neg quote, List.append_assoc]
        by_cases feed : char = '\n'
        · subst feed
          rw [if_pos rfl, List.singleton_append]
          refine read_pending readMultilineBasic_quote few quote ?_
          rw [readMultilineBasic_plain rfl quote (by decide) (by decide), later]
          rfl
        · have escapes := escape_escape char
          rw [if_neg feed]
          generalize escape char = written at escapes ⊢
          cases escapes with
          | shown plain backslash _ back =>
              rw [List.singleton_append]
              refine read_pending readMultilineBasic_quote few quote ?_
              rw [readMultilineBasic_plain (by rw [plain]; rfl) quote backslash back, later]
              rfl
          | escaped line read =>
              rw [List.cons_append]
              refine read_pending readMultilineBasic_quote few (by decide) ?_
              rw [readMultilineBasic_escape (line _) (read _), later]
              rfl

/-! ### As they are -/

theorem readMultilineLiteral_plain (plain : (isPlain char || char == '\n') = true)
    (mark : char ≠ '\'') (back : char ≠ '\r') (rest : List Char) :
    readMultilineLiteral (char :: rest) = (readMultilineLiteral rest).cons char := by
  rw [readMultilineLiteral, if_pos plain]
  all_goals simp [mark, back]

theorem readMultilineLiteral_mark (chars : List Char) (other : chars.take 2 ≠ ['\'', '\'']) :
    readMultilineLiteral ('\'' :: chars) = (readMultilineLiteral chars).cons '\'' := by
  rw [readMultilineLiteral, if_pos (by decide)]
  · exact fun _ _ same => other (same ▸ rfl)
  · exact fun _ _ same => other (same ▸ rfl)
  · exact fun _ _ same => other (same ▸ rfl)
  · exact fun _ same => absurd same (by decide)

theorem readMultilineLiteral_close {run : Nat} (few : run ≤ 2) (ends : rest.head? ≠ some '\'') :
    readMultilineLiteral (List.replicate run '\'' ++ '\'' :: '\'' :: '\'' :: rest) =
      some (List.replicate run '\'', rest) := by
  have alone : ∀ tail, rest ≠ '\'' :: tail := fun _ same => ends (same ▸ rfl)
  interval_cases run <;> simp only [List.replicate, List.cons_append, List.nil_append]
  · rw [readMultilineLiteral]
    · exact fun _ => alone _
    · exact alone
  · rw [readMultilineLiteral]
    exact alone
  · rw [readMultilineLiteral]

/-- The length of the run before the text, and the longest run so far. -/
def runFrom (mark : Char) (state : Nat × Nat) (text : List Char) : Nat :=
  (text.foldl (fun state next =>
    if next == mark then (state.1 + 1, max state.2 (state.1 + 1)) else (0, state.2)) state).2

theorem le_runFrom (mark : Char) (state : Nat × Nat) (text : List Char) :
    state.2 ≤ runFrom mark state text := by
  induction text generalizing state with
  | nil => exact Nat.le_refl _
  | cons next text ih =>
      rw [runFrom, List.foldl_cons]
      refine Nat.le_trans ?_ (ih _)
      split
      · exact Nat.le_max_left _ _
      · exact Nat.le_refl _

theorem readMultilineLiteral_text {run best : Nat} (few : run ≤ 2)
    (shown : text.all (fun char => !isControl char || char == '\n') = true)
    (short : runFrom '\'' (run, best) text ≤ 2) (ends : rest.head? ≠ some '\'') :
    readMultilineLiteral
        (List.replicate run '\'' ++ (text ++ '\'' :: '\'' :: '\'' :: rest)) =
      some (List.replicate run '\'' ++ text, rest) := by
  induction text generalizing run best with
  | nil => rw [List.nil_append, List.append_nil, readMultilineLiteral_close few ends]
  | cons char text ih =>
      obtain ⟨first, others⟩ := (Bool.and_eq_true ..).mp (List.all_cons.symm.trans shown)
      rw [runFrom, List.foldl_cons] at short
      by_cases mark : char = '\''
      · subst mark
        rw [if_pos (by decide), ← runFrom] at short
        have next := Nat.le_trans (le_runFrom ..) short
        rw [List.cons_append, replicate_append_cons, replicate_append_cons]
        exact ih (Nat.le_trans (Nat.le_max_right ..) next) others short
      · rw [if_neg (by simpa using mark), ← runFrom] at short
        have later : readMultilineLiteral (text ++ '\'' :: '\'' :: '\'' :: rest) =
            some (text, rest) := ih (Nat.zero_le 2) others short
        refine read_pending readMultilineLiteral_mark few mark ?_
        rw [Bool.or_eq_true, Bool.not_eq_true', beq_iff_eq] at first
        have back : char ≠ '\r' := by
          rcases first with shown | rfl
          · rintro rfl
            cases shown
          · decide
        have plain : (isPlain char || char == '\n') = true := by
          rcases first with shown | rfl
          · rw [isPlain_of_not_isControl shown]
            rfl
          · rfl
        change readMultilineLiteral (char :: (text ++ '\'' :: '\'' :: '\'' :: rest)) = _
        rw [readMultilineLiteral_plain plain mark back, later]
        rfl

/-! ## Every form -/

/-- The front is no line end. -/
def NoBreak (chars : List Char) : Prop := chars.head? ≠ some '\n' ∧ chars.head? ≠ some '\r'

theorem skipFirstBreak_of_noBreak (front : NoBreak chars) : skipFirstBreak chars = chars := by
  unfold skipFirstBreak
  split
  · exact absurd rfl front.2
  · exact absurd rfl front.1
  · rfl

theorem noBreak_multilineBody (single : '\n' ∉ text) (rest : List Char) :
    NoBreak (multilineBody 0 text ++ '"' :: rest) := by
  cases text with
  | nil => simp [NoBreak, multilineBody]
  | cons char text =>
      obtain ⟨feed, -⟩ := not_or.mp (fun member => single (List.mem_cons.mpr member))
      rw [multilineBody]
      split
      · simp [NoBreak]
      · rw [if_neg (Ne.symm feed)]
        have escapes := escape_escape char
        generalize escape char = written at escapes ⊢
        cases escapes with
        | shown _ _ feed back => simp [NoBreak, feed, back]
        | escaped => simp [NoBreak]

theorem noBreak_text (shown : text.all (fun char => !isControl char || char == '\n') = true)
    (single : '\n' ∉ text) (rest : List Char) : NoBreak (text ++ '\'' :: rest) := by
  cases text with
  | nil => simp [NoBreak]
  | cons char text =>
      obtain ⟨feed, -⟩ := not_or.mp (fun member => single (List.mem_cons.mpr member))
      rw [List.all_cons, Bool.and_eq_true, Bool.or_eq_true, Bool.not_eq_true', beq_iff_eq] at shown
      have first := shown.1.resolve_right (Ne.symm feed)
      constructor
      · simpa using Ne.symm feed
      · rintro same
        cases same
        cases first

theorem readText_of_quote (other : chars.take 2 ≠ ['"', '"']) :
    readText ('"' :: chars) = readBasic chars := by
  unfold readText
  split
  · rename_i same
    cases same
    exact absurd rfl other
  · rename_i same
    cases same
  · rfl

theorem readText_of_mark (other : chars.take 2 ≠ ['\'', '\'']) :
    readText ('\'' :: chars) = readLiteral chars := by
  unfold readText
  split
  · rename_i same
    cases same
  · rename_i same
    cases same
    exact absurd rfl other
  · rfl

/-- A form that shows a text as it is was chosen for a text that it fits. -/
theorem fits_ofText {form : Form} (chosen : Form.ofText text = form)
    (asIs : form = .literal ∨ form = .multilineLiteral) : form.fits text = true := by
  unfold Form.ofText at chosen
  split at chosen
  · rename_i found
    cases chosen
    exact List.find?_some found
  · split at chosen
    · cases chosen
      simp at asIs
    · cases chosen
      simp at asIs

theorem take_two_ne (other : chars.head? ≠ some char) : chars.take 2 ≠ [char, char] := by
  cases chars with
  | nil => simp
  | cons first chars =>
      intro same
      rw [List.take_succ_cons, List.cons.injEq] at same
      exact other (congrArg some same.1)

theorem Escape.head_ne {written : List Char} (escape : Escape char written) (other : next ≠ '\\')
    (different : char ≠ next) (chars : List Char) : (written ++ chars).head? ≠ some next := by
  cases escape with
  | shown => simpa using different
  | escaped => simpa using other.symm

theorem read_basic (text : List Char) (quote : rest.head? ≠ some '"') :
    readText ('"' :: (basicBody text ++ '"' :: rest)) = some (text, rest) := by
  rw [readText_of_quote, readBasic_body]
  cases text with
  | nil =>
      intro same
      rw [basicBody, List.flatMap_nil, List.nil_append, List.take_succ_cons, List.cons.injEq,
        List.take_one] at same
      cases rest with
      | nil => cases same.2
      | cons first rest => exact quote (congrArg List.head? same.2)
  | cons char text =>
      refine take_two_ne ?_
      rw [basicBody, List.flatMap_cons, List.append_assoc]
      split
      · simp
      · rename_i different
        exact (escape_escape char).head_ne (by decide) different _

theorem read_literal (fits : Form.literal.fits text = true) (mark : rest.head? ≠ some '\'') :
    readText ('\'' :: (text ++ '\'' :: rest)) = some (text, rest) := by
  rw [readText_of_mark, readLiteral_text fits]
  cases text with
  | nil =>
      intro same
      rw [List.nil_append, List.take_succ_cons, List.cons.injEq, List.take_one] at same
      cases rest with
      | nil => cases same.2
      | cons first rest => exact mark (congrArg List.head? same.2)
  | cons char text =>
      refine take_two_ne ?_
      simp only [Form.fits, List.all_cons, Bool.and_eq_true, bne_iff_ne] at fits
      simpa using fits.1.2

theorem read_multilineBasic (text : List Char) (quote : rest.head? ≠ some '"') :
    readText ('"' :: '"' :: '"' :: ((if text.contains '\n' then ['\n'] else []) ++
      (multilineBody 0 text ++ '"' :: '"' :: '"' :: rest))) = some (text, rest) := by
  have body : readMultilineBasic (multilineBody 0 text ++ '"' :: '"' :: '"' :: rest) =
      some (text, rest) := readMultilineBasic_body (Nat.zero_le 2) text quote
  change readMultilineBasic (skipFirstBreak _) = _
  split
  · exact body
  · rename_i single
    rw [List.nil_append, skipFirstBreak_of_noBreak (noBreak_multilineBody (by simpa using single) _),
      body]

theorem read_multilineLiteral (fits : Form.multilineLiteral.fits text = true)
    (mark : rest.head? ≠ some '\'') :
    readText ('\'' :: '\'' :: '\'' :: ((if text.contains '\n' then ['\n'] else []) ++
      (text ++ '\'' :: '\'' :: '\'' :: rest))) = some (text, rest) := by
  obtain ⟨shown, short⟩ := (Bool.and_eq_true ..).mp fits
  have body : readMultilineLiteral (text ++ '\'' :: '\'' :: '\'' :: rest) = some (text, rest) :=
    readMultilineLiteral_text (Nat.zero_le 2) shown (of_decide_eq_true short) mark
  change readMultilineLiteral (skipFirstBreak _) = _
  split
  · exact body
  · rename_i single
    rw [List.nil_append, skipFirstBreak_of_noBreak (noBreak_text shown (by simpa using single) _),
      body]

/-- A text that was written is read back, whatever follows it that is not another end. -/
theorem readText_writeText (text : List Char) (quote : rest.head? ≠ some '"')
    (mark : rest.head? ≠ some '\'') : readText (writeText text ++ rest) = some (text, rest) := by
  cases form : Form.ofText text with
  | basic => simpa [writeText, form] using read_basic text quote
  | literal =>
      simpa [writeText, form] using read_literal (fits_ofText form (.inl rfl)) mark
  | multilineBasic => simpa [writeText, form] using read_multilineBasic text quote
  | multilineLiteral =>
      simpa [writeText, form] using read_multilineLiteral (fits_ofText form (.inr rfl)) mark

end CipherModes.Toml
