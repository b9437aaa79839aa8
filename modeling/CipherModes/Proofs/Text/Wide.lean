import CipherModes.Text.Utf16

/-!
# Texts as wide units

Units are well-formed where high and low surrogates stand in pairs. Those are just
the units of texts, and each text has its own. A property value of even length is
read as far as its first zero unit, whatever comes after it.
-/

set_option autoImplicit false

namespace CipherModes

namespace Utf16

variable {unit high low : UInt16} {rest units : List UInt16} {char : Char} {chars : List Char}

/-- Each high surrogate stands directly before a low one, and each low one directly behind a high
one. -/
structure WellFormed (units : List UInt16) : Prop where
  low_follows : ∀ place high, units[place]? = some high → isHigh high →
    ∃ low, units[place + 1]? = some low ∧ isLow low
  high_precedes : ∀ place low, units[place]? = some low → isLow low →
    ∃ before high, place = before + 1 ∧ units[before]? = some high ∧ isHigh high

/-! ## Surrogates as numbers -/

theorem isHigh_iff : isHigh unit ↔ 0xD800 ≤ unit.toNat ∧ unit.toNat < 0xDC00 := by
  simp [isHigh, UInt16.le_iff_toNat_le, UInt16.lt_iff_toNat_lt]

theorem isLow_iff : isLow unit ↔ 0xDC00 ≤ unit.toNat ∧ unit.toNat < 0xE000 := by
  simp [isLow, UInt16.le_iff_toNat_le, UInt16.lt_iff_toNat_lt]

theorem not_isLow_of_isHigh (isHigh : isHigh unit) : ¬ isLow unit := by
  rw [isHigh_iff] at isHigh
  rw [isLow_iff]
  omega

private theorem toNat_ofNat {value : Nat} (valid : value.isValidChar) :
    (Char.ofNat value).toNat = value := by
  rw [Char.ofNat, dif_pos valid]
  rfl

private theorem toNat_unit {value : Nat} (fits : value < 0x10000) :
    (UInt16.ofNat value).toNat = value :=
  Nat.mod_eq_of_lt fits

/-! ## Characters -/

theorem ofChar_ofNat (notHigh : ¬ isHigh unit) (notLow : ¬ isLow unit) :
    ofChar (Char.ofNat unit.toNat) = [unit] := by
  have fits : unit.toNat < 0x10000 := unit.toNat_lt
  rw [isHigh_iff] at notHigh
  rw [isLow_iff] at notLow
  have valid : unit.toNat.isValidChar := by
    simp only [Nat.isValidChar]
    omega
  rw [ofChar, toNat_ofNat valid, if_pos fits, UInt16.ofNat_toNat]

theorem ofChar_pairChar (isHigh : isHigh high) (isLow : isLow low) :
    ofChar (pairChar high low) = [high, low] := by
  rw [isHigh_iff] at isHigh
  rw [isLow_iff] at isLow
  have valid : (0x10000 + (high.toNat - 0xD800) * 0x400 + (low.toNat - 0xDC00)).isValidChar := by
    simp only [Nat.isValidChar]
    omega
  have upper : 0xD800 + (0x10000 + (high.toNat - 0xD800) * 0x400 + (low.toNat - 0xDC00) -
      0x10000) / 0x400 = high.toNat := by omega
  have lower : 0xDC00 + (0x10000 + (high.toNat - 0xD800) * 0x400 + (low.toNat - 0xDC00) -
      0x10000) % 0x400 = low.toNat := by omega
  rw [ofChar, pairChar, toNat_ofNat valid, if_neg (by omega), upper, lower, UInt16.ofNat_toNat,
    UInt16.ofNat_toNat]

/-- A character is one unit, which is no surrogate, or a pair. -/
theorem ofChar_cases (char : Char) :
    (∃ unit, ofChar char = [unit] ∧ ¬ isHigh unit ∧ ¬ isLow unit ∧
      Char.ofNat unit.toNat = char) ∨
    ∃ high low, ofChar char = [high, low] ∧ isHigh high ∧ isLow low ∧ pairChar high low = char := by
  have valid : char.toNat.isValidChar := char.valid
  simp only [Nat.isValidChar] at valid
  by_cases small : char.toNat < 0x10000
  · refine .inl ⟨UInt16.ofNat char.toNat, ?_, ?_, ?_, ?_⟩
    · rw [ofChar, if_pos small]
    · rw [isHigh_iff, toNat_unit small]
      omega
    · rw [isLow_iff, toNat_unit small]
      omega
    · rw [toNat_unit small, Char.ofNat_toNat]
  · have upper : 0xD800 + (char.toNat - 0x10000) / 0x400 < 0xDC00 := by omega
    have lower : 0xDC00 + (char.toNat - 0x10000) % 0x400 < 0xE000 := by omega
    refine .inr ⟨UInt16.ofNat (0xD800 + (char.toNat - 0x10000) / 0x400),
      UInt16.ofNat (0xDC00 + (char.toNat - 0x10000) % 0x400), ?_, ?_, ?_, ?_⟩
    · rw [ofChar, if_neg small]
    · rw [isHigh_iff, toNat_unit (by omega)]
      omega
    · rw [isLow_iff, toNat_unit (by omega)]
      omega
    · rw [pairChar, toNat_unit (by omega), toNat_unit (by omega)]
      have whole : 0x10000 + (0xD800 + (char.toNat - 0x10000) / 0x400 - 0xD800) * 0x400 +
          (0xDC00 + (char.toNat - 0x10000) % 0x400 - 0xDC00) = char.toNat := by omega
      rw [whole, Char.ofNat_toNat]

theorem zero_mem_ofChar_iff : 0 ∈ ofChar char ↔ char = '\x00' := by
  constructor
  · obtain ⟨unit, units, -, -, same⟩ | ⟨high, low, units, isHigh, isLow, -⟩ := ofChar_cases char
    · rw [units, List.mem_singleton]
      rintro rfl
      exact same.symm
    · rw [isHigh_iff] at isHigh
      rw [isLow_iff] at isLow
      rw [units, List.mem_cons, List.mem_singleton]
      rintro (rfl | rfl)
      · exact absurd isHigh (by decide)
      · exact absurd isLow (by decide)
  · rintro rfl
    decide

/-! ## Texts -/

theorem decode?_of_single (notHigh : ¬ isHigh unit) (notLow : ¬ isLow unit) :
    decode? (unit :: rest) = (decode? rest).map (Char.ofNat unit.toNat :: ·) := by
  cases rest with
  | nil => simp [decode?, notHigh, notLow]
  | cons next rest => simp [decode?, notHigh, notLow]

theorem decode?_of_pair (isHigh : isHigh high) (isLow : isLow low) :
    decode? (high :: low :: rest) = (decode? rest).map (pairChar high low :: ·) := by
  simp [decode?, isHigh, isLow]

theorem encode_cons (char : Char) (chars : List Char) :
    encode (char :: chars) = ofChar char ++ encode chars :=
  List.flatMap_cons

theorem decode?_encode (chars : List Char) : decode? (encode chars) = some chars := by
  induction chars with
  | nil => rfl
  | cons char chars ih =>
      rw [encode_cons]
      obtain ⟨unit, units, notHigh, notLow, rfl⟩ | ⟨high, low, units, isHigh, isLow, rfl⟩ :=
        ofChar_cases char
      · rw [units, List.singleton_append, decode?_of_single notHigh notLow, ih]
        rfl
      · rw [units, List.cons_append, List.singleton_append, decode?_of_pair isHigh isLow, ih]
        rfl

theorem encode_of_decode? (decoded : decode? units = some chars) : encode chars = units := by
  fun_induction decode? units generalizing chars with
  | case1 =>
      cases decoded
      rfl
  | case2 unit surrogate => cases decoded
  | case3 unit single =>
      cases decoded
      simp only [Bool.or_eq_true, not_or] at single
      rw [encode_cons, ofChar_ofNat single.1 single.2]
      rfl
  | case4 high low rest isHigh isLow ih =>
      obtain ⟨later, found, rfl⟩ := Option.map_eq_some_iff.mp decoded
      rw [encode_cons, ofChar_pairChar isHigh isLow, ih found]
      rfl
  | case5 high next rest isHigh notLow => cases decoded
  | case6 unit next rest notHigh isLow => cases decoded
  | case7 unit next rest notHigh notLow ih =>
      obtain ⟨later, found, rfl⟩ := Option.map_eq_some_iff.mp decoded
      rw [encode_cons, ofChar_ofNat notHigh notLow, ih found]
      rfl

theorem decode?_eq_some_iff : decode? units = some chars ↔ units = encode chars :=
  ⟨fun decoded => (encode_of_decode? decoded).symm, fun same => same ▸ decode?_encode chars⟩

theorem encode_inj {left right : List Char} : encode left = encode right ↔ left = right := by
  refine ⟨fun same => ?_, congrArg encode⟩
  have decoded := decode?_encode left
  rw [same, decode?_encode] at decoded
  exact (Option.some.inj decoded).symm

/-! ## Which units are those of a text -/

theorem wellFormed_nil : WellFormed [] := ⟨nofun, nofun⟩

theorem wellFormed_single_iff (notHigh : ¬ isHigh unit) (notLow : ¬ isLow unit) :
    WellFormed (unit :: rest) ↔ WellFormed rest := by
  constructor
  · rintro ⟨low_follows, high_precedes⟩
    refine ⟨fun place => low_follows (place + 1), ?_⟩
    intro place low found isLow
    obtain ⟨before, high, same, precedes, isHigh⟩ := high_precedes (place + 1) low found isLow
    cases before with
    | zero =>
        cases precedes
        exact absurd isHigh notHigh
    | succ before => exact ⟨before, high, Nat.succ.inj same, precedes, isHigh⟩
  · rintro ⟨low_follows, high_precedes⟩
    constructor
    · intro place high found isHigh
      cases place with
      | zero =>
          cases found
          exact absurd isHigh notHigh
      | succ place => exact low_follows place high found isHigh
    · intro place low found isLow
      cases place with
      | zero =>
          cases found
          exact absurd isLow notLow
      | succ place =>
          obtain ⟨before, high, rfl, precedes, isHigh⟩ := high_precedes place low found isLow
          exact ⟨before + 1, high, rfl, precedes, isHigh⟩

theorem wellFormed_pair_iff (isHigh : isHigh high) (isLow : isLow low) :
    WellFormed (high :: low :: rest) ↔ WellFormed rest := by
  constructor
  · rintro ⟨low_follows, high_precedes⟩
    refine ⟨fun place => low_follows (place + 2), ?_⟩
    intro place other found otherLow
    obtain ⟨before, first, same, precedes, firstHigh⟩ :=
      high_precedes (place + 2) other found otherLow
    cases before with
    | zero => cases same
    | succ before =>
        cases before with
        | zero =>
            cases precedes
            exact absurd isLow (not_isLow_of_isHigh firstHigh)
        | succ before => exact ⟨before, first, by omega, precedes, firstHigh⟩
  · rintro ⟨low_follows, high_precedes⟩
    constructor
    · intro place first found firstHigh
      match place with
      | 0 => exact ⟨low, rfl, isLow⟩
      | 1 =>
          cases found
          exact absurd isLow (not_isLow_of_isHigh firstHigh)
      | place + 2 => exact low_follows place first found firstHigh
    · intro place other found otherLow
      match place with
      | 0 =>
          cases found
          exact absurd otherLow (not_isLow_of_isHigh isHigh)
      | 1 => exact ⟨0, high, rfl, rfl, isHigh⟩
      | place + 2 =>
          obtain ⟨before, first, rfl, precedes, firstHigh⟩ :=
            high_precedes place other found otherLow
          exact ⟨before + 2, first, rfl, precedes, firstHigh⟩

theorem WellFormed.not_low (wellFormed : WellFormed (unit :: rest)) : ¬ isLow unit := by
  intro isLow
  obtain ⟨before, high, same, -, -⟩ := wellFormed.high_precedes 0 unit rfl isLow
  cases same

theorem isSome_decode?_iff : (decode? units).isSome ↔ WellFormed units := by
  fun_induction decode? units with
  | case1 => exact ⟨fun _ => wellFormed_nil, fun _ => rfl⟩
  | case2 unit surrogate =>
      refine ⟨nofun, fun wellFormed => ?_⟩
      rcases Bool.or_eq_true_iff.mp surrogate with isHigh | isLow
      · obtain ⟨low, follows, -⟩ := wellFormed.low_follows 0 unit rfl isHigh
        cases follows
      · exact absurd isLow wellFormed.not_low
  | case3 unit single =>
      simp only [Bool.or_eq_true, not_or] at single
      rw [wellFormed_single_iff single.1 single.2]
      exact ⟨fun _ => wellFormed_nil, fun _ => rfl⟩
  | case4 high low rest isHigh isLow ih =>
      rw [Option.isSome_map, wellFormed_pair_iff isHigh isLow, ih]
  | case5 high next rest isHigh notLow =>
      refine ⟨nofun, fun wellFormed => ?_⟩
      obtain ⟨low, follows, isLow⟩ := wellFormed.low_follows 0 high rfl isHigh
      cases follows
      exact absurd isLow notLow
  | case6 unit next rest notHigh isLow =>
      exact ⟨nofun, fun wellFormed => absurd isLow wellFormed.not_low⟩
  | case7 unit next rest notHigh notLow ih =>
      rw [Option.isSome_map, wellFormed_single_iff notHigh notLow, ih]

/-! ## Units as bytes -/

/-- The units of a byte string, low byte first, without a last single byte. -/
def unitsOf : Bytes → List UInt16
  | low :: high :: rest => UInt16.ofNat (low.toNat + 256 * high.toNat) :: unitsOf rest
  | _ => []

theorem length_toBytes (units : List UInt16) : (toBytes units).length = 2 * units.length := by
  induction units with
  | nil => rfl
  | cons unit rest ih =>
      have later : (toBytes (unit :: rest)).length = 2 + (toBytes rest).length := by
        rw [toBytes, List.flatMap_cons, List.length_append, Bytes.length_littleEndian]
        rfl
      rw [later, ih, List.length_cons]
      omega

theorem unitsOf_toBytes_append (units : List UInt16) (bytes : Bytes) :
    unitsOf (toBytes units ++ bytes) = units ++ unitsOf bytes := by
  induction units with
  | nil => rfl
  | cons unit rest ih =>
      have number : UInt16.ofNat ((UInt8.ofNat unit.toNat).toNat +
          256 * (UInt8.ofNat (unit.toNat / 256)).toNat) = unit := by
        apply UInt16.toNat_inj.mp
        have fits : unit.toNat < 0x10000 := unit.toNat_lt
        simp only [UInt8.toNat_ofNat', UInt16.toNat_ofNat']
        omega
      change _ :: unitsOf (toBytes rest ++ bytes) = _
      rw [number, ih, List.cons_append]

theorem unitsOf_toBytes (units : List UInt16) : unitsOf (toBytes units) = units := by
  have read : unitsOf (toBytes units ++ []) = units ++ [] := unitsOf_toBytes_append units []
  rwa [List.append_nil, List.append_nil] at read

theorem ofBytes?_eq (bytes : Bytes) :
    ofBytes? bytes = if bytes.length % 2 = 0 then some (unitsOf bytes) else none := by
  fun_induction ofBytes? bytes with
  | case1 => rfl
  | case2 => rfl
  | case3 low high rest ih =>
      have parity : (low :: high :: rest).length % 2 = rest.length % 2 := Nat.add_mod_right _ 2
      rw [ih, parity]
      split
      · rfl
      · rfl

/-- The units of a property value that are read: those before the first zero unit. -/
def textUnits (bytes : Bytes) : List UInt16 := (unitsOf bytes).takeWhile (· != 0)

/-- A zero unit ends a text at its first zero character, or at its end. -/
theorem takeWhile_encode (chars : List Char) (rest : List UInt16) :
    (encode chars ++ 0 :: rest).takeWhile (· != 0) = encode (chars.takeWhile (· != '\x00')) := by
  induction chars with
  | nil => rfl
  | cons char chars ih =>
      rw [encode_cons, List.append_assoc]
      by_cases zero : char = '\x00'
      · rw [zero]
        rfl
      · have nonzero : ∀ unit ∈ ofChar char, (unit != 0) = true := by
          intro unit member
          rw [bne_iff_ne]
          rintro rfl
          exact zero (zero_mem_ofChar_iff.mp member)
        have kept : (char != '\x00') = true := bne_iff_ne.mpr zero
        rw [List.takeWhile_append_of_pos nonzero, ih, List.takeWhile_cons, if_pos kept, encode_cons]

end Utf16

open Utf16

theorem textUnits_encodeWide_append (text : String) (junk : Bytes) :
    textUnits (encodeWide text ++ junk) =
      encode (text.toList.takeWhile (· != '\x00')) := by
  rw [textUnits, encodeWide, unitsOf_toBytes_append, List.append_assoc]
  exact takeWhile_encode text.toList (unitsOf junk)

theorem decodeWide?_eq_some_iff {bytes : Bytes} {text : String} :
    decodeWide? bytes = some text ↔
      bytes.length % 2 = 0 ∧ textUnits bytes = encode text.toList := by
  by_cases even : bytes.length % 2 = 0
  · have read : decodeWide? bytes = (decode? (textUnits bytes)).map String.ofList := by
      rw [decodeWide?, ofBytes?_eq, if_pos even]
      change (decode? (textUnits bytes)).bind (fun chars => some (String.ofList chars)) = _
      cases decode? (textUnits bytes) with
      | none => rfl
      | some chars => rfl
    rw [read, ← decode?_eq_some_iff, Option.map_eq_some_iff]
    constructor
    · rintro ⟨chars, decoded, rfl⟩
      rw [String.toList_ofList]
      exact ⟨even, decoded⟩
    · rintro ⟨-, decoded⟩
      exact ⟨text.toList, decoded, String.ofList_toList⟩
  · have refused : decodeWide? bytes = none := by
      rw [decodeWide?, ofBytes?_eq, if_neg even]
      rfl
    rw [refused]
    exact ⟨nofun, fun both => absurd both.1 even⟩

theorem encodeWide_injective : Function.Injective encodeWide := by
  intro left right same
  have units := congrArg unitsOf same
  rw [encodeWide, encodeWide, unitsOf_toBytes, unitsOf_toBytes] at units
  exact String.toList_inj.mp (encode_inj.mp (List.append_cancel_right units))

/-- What is read is the text before its first zero character, whatever whole units come after it.
Just the well-formed units are read, and they are the ones that their text is written in. -/
theorem wide_texts_come_back :
    (∀ (text : String) (junk : Bytes), junk.length % 2 = 0 →
      decodeWide? (encodeWide text ++ junk) =
        some (String.ofList (text.toList.takeWhile (· != '\x00')))) ∧
      Function.Injective encodeWide ∧
      ∀ bytes : Bytes,
        ((decodeWide? bytes).isSome ↔ bytes.length % 2 = 0 ∧ WellFormed (textUnits bytes)) ∧
          ∀ text, decodeWide? bytes = some text →
            encodeWide text = toBytes (textUnits bytes ++ [0]) := by
  refine ⟨?_, encodeWide_injective, ?_⟩
  · intro text junk even
    rw [decodeWide?_eq_some_iff, textUnits_encodeWide_append, String.toList_ofList]
    refine ⟨?_, rfl⟩
    rw [List.length_append, encodeWide, length_toBytes, Nat.mul_add_mod, even]
  · intro bytes
    constructor
    · rw [Option.isSome_iff_exists, ← isSome_decode?_iff, Option.isSome_iff_exists]
      constructor
      · rintro ⟨text, read⟩
        obtain ⟨even, units⟩ := decodeWide?_eq_some_iff.mp read
        exact ⟨even, text.toList, decode?_eq_some_iff.mpr units⟩
      · rintro ⟨even, chars, decoded⟩
        refine ⟨String.ofList chars, decodeWide?_eq_some_iff.mpr ⟨even, ?_⟩⟩
        rw [String.toList_ofList]
        exact decode?_eq_some_iff.mp decoded
    · intro text read
      rw [encodeWide, (decodeWide?_eq_some_iff.mp read).2]

/-- A pair of surrogates before a zero character, and half a pair after the end; and a pair that a
zero unit cuts. -/
theorem wide_texts_come_back_before_zero :
    decodeWide? (encodeWide "a😀\x00b" ++ [0x3d, 0xd8]) = some "a😀" ∧
      decodeWide? [0x3d, 0xd8, 0, 0, 0, 0xde] = none := by
  obtain ⟨back, -, reads⟩ := wide_texts_come_back
  refine ⟨back "a😀\x00b" [0x3d, 0xd8] rfl, ?_⟩
  rw [← Option.not_isSome_iff_eq_none, (reads _).1]
  rintro ⟨-, wellFormed⟩
  obtain ⟨low, follows, -⟩ := wellFormed.low_follows 0 0xd83d rfl rfl
  cases follows

end CipherModes
