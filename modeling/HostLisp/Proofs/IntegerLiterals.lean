import HostLisp.Number
import HostLisp.Proofs.Digits
import HostLisp.Value

/-!
# Integer literals and their values

Which texts are integer literals, and which integer each of them stands for, said without reading
them.  A literal is an optional sign and a magnitude (`Numeral.Written`), and a magnitude is a run
of decimal digits, or of hexadecimal ones behind a base mark (`Numeral.Magnitude`).

A literal is read twice, as a signed and as an unsigned integer, with different limits and different
ways to apply the sign.  The signed limit is the lower one, and below it both readings have the same
bits (`Numeral.unsigned?_of_signed?`).  So comparing the readings refuses nothing, and the value of
a literal is its signed reading, which is exact (`Numeral.signed?_eq_some_iff`).
-/

namespace HostLisp

open Text

namespace Numeral

/-! ## Texts of literals -/

/-- The text is a run of digits that stands for the number. -/
inductive Magnitude : List Char → Nat → Prop where
  | decimal {ds : List Char} {n : Nat} (hne : ds ≠ []) (hplace : PlaceValue 10 ds n) :
    Magnitude ds n
  | hexadecimal {mark : Char} {ds : List Char} {n : Nat} (hmark : mark = 'x' ∨ mark = 'X')
    (hne : ds ≠ []) (hplace : PlaceValue 16 ds n) : Magnitude ('0' :: mark :: ds) n

/-- The text is a literal with the sign and the magnitude of the numeral. -/
inductive Written : List Char → Numeral → Prop where
  | bare {cs : List Char} {n : Nat} (h : Magnitude cs n) : Written cs ⟨false, n⟩
  | plus {cs : List Char} {n : Nat} (h : Magnitude cs n) : Written ('+' :: cs) ⟨false, n⟩
  | minus {cs : List Char} {n : Nat} (h : Magnitude cs n) : Written ('-' :: cs) ⟨true, n⟩

/-- The integer that a literal stands for. -/
def toInt (n : Numeral) : Int := if n.negative then -(n.magnitude : Int) else n.magnitude

/-- A base mark is no decimal digit. -/
theorem not_placeValue_mark {mark : Char} (hmark : mark = 'x' ∨ mark = 'X') {ds : List Char}
    {n : Nat} : ¬ PlaceValue 10 ('0' :: mark :: ds) n := by
  intro hplace
  obtain ⟨value, hvalue⟩ := hplace.isDigit mark (by simp)
  have hdecimal := hvalue.isDecimal
  rcases hmark with rfl | rfl <;> exact absurd hdecimal (by decide)

theorem magnitude?_eq_some_iff {cs : List Char} {n : Nat} :
    magnitude? cs = some n ↔ Magnitude cs n := by
  constructor
  · intro h
    unfold magnitude? at h
    split at h <;> obtain ⟨hne, hplace⟩ := readDigits?_eq_some_iff.1 h
    case h_1 => exact .hexadecimal (.inl rfl) hne hplace
    case h_2 => exact .hexadecimal (.inr rfl) hne hplace
    case h_3 => exact .decimal hne hplace
  · intro h
    cases h with
    | decimal hne hplace =>
      unfold magnitude?
      split
      case h_1 => exact absurd hplace (not_placeValue_mark (.inl rfl))
      case h_2 => exact absurd hplace (not_placeValue_mark (.inr rfl))
      case h_3 => exact readDigits?_eq_some_iff.2 ⟨hne, hplace⟩
    | hexadecimal hmark hne hplace =>
      rcases hmark with rfl | rfl <;> exact readDigits?_eq_some_iff.2 ⟨hne, hplace⟩

/-- A magnitude has no sign of its own. -/
theorem Magnitude.isDecimal_head {c : Char} {cs : List Char} {n : Nat}
    (h : Magnitude (c :: cs) n) : isDecimal c = true := by
  cases h with
  | decimal _ hplace =>
    obtain ⟨value, hvalue⟩ := hplace.isDigit c (by simp)
    exact hvalue.isDecimal
  | hexadecimal => rfl

theorem ofChars?_eq_some_iff {cs : List Char} {numeral : Numeral} :
    ofChars? cs = some numeral ↔ Written cs numeral := by
  constructor
  · intro h
    unfold ofChars? at h
    split at h <;> obtain ⟨n, hn, rfl⟩ := Option.map_eq_some_iff.1 h
    case h_1 => exact .minus (magnitude?_eq_some_iff.1 hn)
    case h_2 => exact .plus (magnitude?_eq_some_iff.1 hn)
    case h_3 => exact .bare (magnitude?_eq_some_iff.1 hn)
  · intro h
    cases h with
    | bare h =>
      unfold ofChars?
      split
      case h_1 => exact absurd h.isDecimal_head (by decide)
      case h_2 => exact absurd h.isDecimal_head (by decide)
      case h_3 => exact Option.map_eq_some_iff.2 ⟨_, magnitude?_eq_some_iff.2 h, rfl⟩
    | plus h | minus h => exact Option.map_eq_some_iff.2 ⟨_, magnitude?_eq_some_iff.2 h, rfl⟩

theorem Written.unique {cs : List Char} {n n' : Numeral} (h : Written cs n) (h' : Written cs n') :
    n = n' :=
  Option.some.inj ((ofChars?_eq_some_iff.2 h).symm.trans (ofChars?_eq_some_iff.2 h'))

/-! ## The two readings -/

theorem signed?_eq_some_iff {n : Numeral} {v : Int64} :
    n.signed? = some v ↔ n.magnitude ≤ 2 ^ 63 - 1 ∧ v.toInt = n.toInt := by
  have hmax : Int64.maxValue.toInt = 2 ^ 63 - 1 := by decide
  unfold signed?
  rw [hmax]
  split
  case isTrue hle =>
    have hvalue : (Int64.ofInt n.toInt).toInt = n.toInt := by
      refine Int64.toInt_ofInt_of_le ?_ ?_ <;> unfold toInt <;> split <;> omega
    have hin : n.magnitude ≤ 2 ^ 63 - 1 := by omega
    change some (Int64.ofInt n.toInt) = some v ↔ _
    rw [Option.some_inj, and_iff_right hin, ← Int64.toInt_inj, hvalue, eq_comm]
  case isFalse hlt =>
    simp only [reduceCtorEq, false_iff, not_and]
    omega

/-- Below the limit of the signed reading, wrapping a negative magnitude around gives the bits of
the negative integer. -/
theorem unsigned?_of_signed? {n : Numeral} {v : Int64} (h : n.signed? = some v) :
    n.unsigned? = some v.toUInt64 := by
  obtain ⟨hle, hv⟩ := signed?_eq_some_iff.1 h
  have hsize : n.magnitude < UInt64.size := by
    have : UInt64.size = 2 ^ 64 := rfl
    omega
  obtain rfl : Int64.ofInt n.toInt = v := by rw [← hv, Int64.ofInt_toInt]
  unfold unsigned? toInt
  rw [if_pos hsize, Option.some_inj, ← UInt64.toBitVec_inj]
  cases n.negative with
  | false => exact (BitVec.ofInt_natCast 64 n.magnitude).symm
  | true =>
    have hneg : BitVec.ofInt 64 (-(n.magnitude : Int)) = -BitVec.ofNat 64 n.magnitude := by
      rw [BitVec.ofInt_neg, BitVec.ofInt_natCast]
    exact hneg.symm

end Numeral

theorem signedReading?_eq_some_iff {text : String} {v : Int64} :
    signedReading? text = some v ↔
      ∃ n, Numeral.Written text.toList n ∧ n.magnitude ≤ 2 ^ 63 - 1 ∧ v.toInt = n.toInt := by
  unfold signedReading?
  simp only [Option.bind_eq_some_iff, Numeral.ofChars?_eq_some_iff, Numeral.signed?_eq_some_iff]

theorem unsignedReading?_of_signedReading? {text : String} {v : Int64}
    (h : signedReading? text = some v) : unsignedReading? text = some v.toUInt64 := by
  obtain ⟨n, hn, hv⟩ := Option.bind_eq_some_iff.1 h
  exact Option.bind_eq_some_iff.2 ⟨n, hn, Numeral.unsigned?_of_signed? hv⟩

/-- The readings never disagree. -/
theorem integerLiteral?_eq_signedReading? (text : String) :
    integerLiteral? text = signedReading? text := by
  unfold integerLiteral?
  cases hsigned : signedReading? text with
  | none => rfl
  | some v => simp [unsignedReading?_of_signedReading? hsigned]

/-! ## Decimal display -/

theorem placeValue_toDigits (n : Nat) : PlaceValue 10 (Nat.toDigits 10 n) n := by
  have hdigit : ∀ value < 10, IsDigit 10 value.digitChar value := by
    intro value hvalue
    have hnat := Nat.toNat_digitChar_of_lt_ten hvalue
    exact isDigit_iff.2 ⟨hvalue, .inl ⟨hvalue, by omega⟩⟩
  induction n using Nat.strongRecOn with
  | ind n ih =>
    rw [Nat.toDigits_eq_if (by decide)]
    split
    case isTrue hlt => exact placeValue_nil_iff.2 rfl |>.concat (hdigit n hlt) (by omega)
    case isFalse hle =>
      -- All but the last digit stand for a tenth of the number.
      have hrest := ih (n / 10) (by omega)
      exact hrest.concat (hdigit (n % 10) (Nat.mod_lt n (by decide))) (by omega)

theorem Numeral.written_toString (i : Int) :
    Written (toString i).toList ⟨decide (i < 0), i.natAbs⟩ := by
  have hmagnitude : ∀ n : Nat, Magnitude n.repr.toList n := by
    intro n
    rw [Nat.repr_eq_ofList_toDigits, String.toList_ofList]
    exact .decimal Nat.toDigits_ne_nil (placeValue_toDigits n)
  rw [Int.toString_eq_repr, Int.repr_eq_if]
  split
  case isTrue hle =>
    have hnat : i.toNat = i.natAbs := by omega
    rw [hnat, decide_eq_false (by omega)]
    exact .bare (hmagnitude i.natAbs)
  case isFalse hlt =>
    have hnat : (-i).toNat = i.natAbs := by omega
    rw [hnat, decide_eq_true (by omega), String.toList_append]
    exact .minus (hmagnitude i.natAbs)

/-- The text of an integer stands for that integer. -/
theorem integerLiteral?_display {v : Int64} :
    integerLiteral? (Value.int v).display = some v ↔ v ≠ Int64.minValue := by
  have hmin : v ≠ Int64.minValue ↔ v.toInt ≠ -2 ^ 63 := Int64.toInt_inj.not.symm
  have hlower := v.le_toInt
  have hupper := v.toInt_lt
  have hwritten : Numeral.Written (Value.int v).display.toList _ :=
    Numeral.written_toString v.toInt
  rw [integerLiteral?_eq_signedReading?, signedReading?_eq_some_iff, hmin]
  constructor
  · rintro ⟨n, hn, hle, -⟩ hv
    obtain rfl := hn.unique hwritten
    simp only at hle
    omega
  · intro hv
    refine ⟨_, hwritten, ?_, ?_⟩
    · simp only
      omega
    · simp only [Numeral.toInt, decide_eq_true_eq]
      split <;> omega

/-! ## Literals of a program -/

theorem nonNegative?_eq_none_iff {v : Int64} : nonNegative? v = none ↔ v < 0 := by
  unfold nonNegative?
  split
  case isTrue hle => simp [Int64.not_lt.2 hle]
  case isFalse hlt => simp [Int64.not_le.1 hlt]

/-- A text has a value if and only if it is a literal whose magnitude is a signed integer, and then
the value is the integer that it stands for.  The readings agree wherever there is a signed one.
The unsigned view of a literal is its unsigned reading, and is missing for negative ones only.
Every integer but the least one is the value of its own text. -/
theorem integer_literals_are_read_exactly :
    (∀ (text : String) (v : Int64), integerLiteral? text = some v ↔
      ∃ n, Numeral.Written text.toList n ∧ n.magnitude ≤ 2 ^ 63 - 1 ∧ v.toInt = n.toInt) ∧
    (∀ (text : String) (v : Int64), signedReading? text = some v →
      unsignedReading? text = some v.toUInt64) ∧
    (∀ text : String, integerLiteral? text = signedReading? text) ∧
    (∀ (text : String) (v : Int64), integerLiteral? text = some v →
      ∃ literal, NumberLiteral.ofText? text = some literal ∧ literal.value = v ∧
        (0 ≤ v → literal.unsigned? = unsignedReading? text) ∧
        (literal.unsigned? = none ↔ v < 0)) ∧
    ∀ v : Int64, integerLiteral? (Value.int v).display = some v ↔ v ≠ Int64.minValue := by
  refine ⟨fun text v => ?_, fun text v => unsignedReading?_of_signedReading?,
    integerLiteral?_eq_signedReading?, fun text v hv => ?_, fun v => integerLiteral?_display⟩
  · rw [integerLiteral?_eq_signedReading?, signedReading?_eq_some_iff]
  · refine ⟨⟨text, v⟩, Option.map_eq_some_iff.2 ⟨v, hv, rfl⟩, rfl, fun hle => ?_,
      nonNegative?_eq_none_iff⟩
    rw [integerLiteral?_eq_signedReading?] at hv
    rw [unsignedReading?_of_signedReading? hv]
    exact if_pos hle

/-- The largest literal is read in both ways.  A minus sign before zero changes nothing, but before
other digits it takes the unsigned view away. -/
theorem largest_and_minus_zero_are_read :
    unsignedReading? "0x7fffFFFFffffFFFF" = some Int64.maxValue.toUInt64 ∧
      (∃ literal, NumberLiteral.ofText? "-0" = some literal ∧
        literal.unsigned? = unsignedReading? "-0") ∧
      ∃ literal, NumberLiteral.ofText? "-0x10" = some literal ∧ literal.unsigned? = none := by
  obtain ⟨-, hreadings, -, hliteral, -⟩ := integer_literals_are_read_exactly
  obtain ⟨zero, hzero, -, hview, -⟩ := hliteral "-0" 0 rfl
  obtain ⟨negative, hnegative, -, -, hmissing⟩ := hliteral "-0x10" (-16) rfl
  exact ⟨hreadings "0x7fffFFFFffffFFFF" Int64.maxValue rfl, ⟨zero, hzero, hview (by decide)⟩,
    negative, hnegative, hmissing.2 (by decide)⟩

end HostLisp
