import HostLisp.Text.Class
import Mathlib.Data.List.Forall2
import Mathlib.Data.Nat.Digits.Defs

/-!
# What digits stand for

The value of a run of digits in positional notation, said without reading it.  A digit is a
character of an alphabet of thirty-six, whose place there is its value, and letters are of either
case (`IsDigit`).  A run of digits stands for the number that has these values as its digits
(`PlaceValue`).

The main result is `readDigits?_eq_some_iff`: reading a run gives a number if the run is not empty
and stands for that number, and for no other run.
-/

namespace HostLisp

open Text

/-- The digits in the order of their values. -/
def digitAlphabet : List Char :=
  ['0', '1', '2', '3', '4', '5', '6', '7', '8', '9', 'a', 'b', 'c', 'd', 'e', 'f', 'g', 'h', 'i',
    'j', 'k', 'l', 'm', 'n', 'o', 'p', 'q', 'r', 's', 't', 'u', 'v', 'w', 'x', 'y', 'z']

/-- The character is a digit of the radix, with this value. -/
def IsDigit (radix : Nat) (c : Char) (value : Nat) : Prop :=
  value < radix ∧ digitAlphabet[value]? = some c.toLower

/-- The digits stand for the number, the first one counting most. -/
def PlaceValue (radix : Nat) (ds : List Char) (n : Nat) : Prop :=
  ∃ values, List.Forall₂ (IsDigit radix) ds values ∧ n = Nat.ofDigits radix values.reverse

/-! ## Single digits -/

/-- The two stretches of the alphabet, by the numbers of their characters. -/
theorem getElem?_digitAlphabet {value : Nat} {c : Char} :
    digitAlphabet[value]? = some c ↔
      value < 10 ∧ c.toNat = value + 48 ∨ 10 ≤ value ∧ value < 36 ∧ c.toNat = value + 87 := by
  have htable : ∀ value < 36, digitAlphabet[value]?.map Char.toNat
      = some (if value < 10 then value + 48 else value + 87) := by
    decide
  by_cases hvalue : value < 36
  · obtain ⟨d, hd, hnat⟩ := Option.map_eq_some_iff.1 (htable value hvalue)
    rw [hd, Option.some_inj, ← Char.toNat_inj]
    split at hnat <;> omega
  · have hnone : digitAlphabet[value]? = none := by
      refine List.getElem?_eq_none ?_
      simpa [digitAlphabet] using hvalue
    simp only [hnone, reduceCtorEq, false_iff]
    omega

theorem toNat_toLower (c : Char) :
    c.toLower.toNat = if 65 ≤ c.toNat ∧ c.toNat ≤ 90 then c.toNat + 32 else c.toNat := by
  have hupper : c.val ≥ 'A'.val ∧ c.val ≤ 'Z'.val ↔ 65 ≤ c.toNat ∧ c.toNat ≤ 90 := Iff.rfl
  unfold Char.toLower
  split
  case isTrue h =>
    have hle : c.val.toNat ≤ 90 := (hupper.1 h).2
    have hshift : ('a'.val - 'A'.val).toNat = 32 := rfl
    have hsum : (c.val + ('a'.val - 'A'.val)).toNat = c.val.toNat + 32 := by
      rw [UInt32.toNat_add, hshift, Nat.mod_eq_of_lt (by omega)]
    rw [if_pos (hupper.1 h)]
    exact hsum
  case isFalse h => rw [if_neg fun h' => h (hupper.2 h')]

/-- A digit by its number: the decimal ones, and the letters of either case. -/
theorem isDigit_iff {radix value : Nat} {c : Char} :
    IsDigit radix c value ↔ value < radix ∧
      (value < 10 ∧ c.toNat = value + 48 ∨
        10 ≤ value ∧ value < 36 ∧ (c.toNat = value + 87 ∨ c.toNat = value + 55)) := by
  rw [IsDigit, getElem?_digitAlphabet, toNat_toLower]
  split <;> omega

theorem isDecimal_iff {c : Char} : isDecimal c = true ↔ 48 ≤ c.toNat ∧ c.toNat ≤ 57 := by
  simp only [isDecimal, Bool.and_eq_true, decide_eq_true_eq]
  rfl

theorem isHexadecimal_iff {c : Char} :
    isHexadecimal c = true ↔
      48 ≤ c.toNat ∧ c.toNat ≤ 57 ∨ 97 ≤ c.toNat ∧ c.toNat ≤ 102 ∨
        65 ≤ c.toNat ∧ c.toNat ≤ 70 := by
  simp only [isHexadecimal, Bool.or_eq_true, isDecimal_iff, Bool.and_eq_true, decide_eq_true_eq,
    or_assoc]
  rfl

theorem IsDigit.isDecimal {c : Char} {value : Nat} (h : IsDigit 10 c value) :
    isDecimal c = true := by
  have hdigit := isDigit_iff.1 h
  exact isDecimal_iff.2 (by omega)

theorem IsDigit.isHexadecimal {c : Char} {value : Nat} (h : IsDigit 16 c value) :
    isHexadecimal c = true := by
  have hdigit := isDigit_iff.1 h
  exact isHexadecimal_iff.2 (by omega)

/-- The value of a character as a digit. -/
theorem digitValue?_eq_some_iff {radix value : Nat} {c : Char} :
    digitValue? radix c = some value ↔ IsDigit radix c value := by
  have hlower : 'a' ≤ c ∧ c ≤ 'z' ↔ 97 ≤ c.toNat ∧ c.toNat ≤ 122 := Iff.rfl
  have hupper : 'A' ≤ c ∧ c ≤ 'Z' ↔ 65 ≤ c.toNat ∧ c.toNat ≤ 90 := Iff.rfl
  have hfirst : '0'.toNat = 48 ∧ 'a'.toNat = 97 ∧ 'A'.toNat = 65 := by decide
  rw [isDigit_iff]
  unfold digitValue?
  simp only [Option.filter_eq_some_iff, decide_eq_true_eq, isDecimal_iff, hlower, hupper]
  split
  case isTrue => simp only [Option.some_inj]; omega
  case isFalse =>
    split
    case isTrue => simp only [Option.some_inj]; omega
    case isFalse =>
      split
      case isTrue => simp only [Option.some_inj]; omega
      case isFalse => simp only [reduceCtorEq, false_and, false_iff]; omega

/-- A digit is none of the characters that are not in the alphabet. -/
theorem IsDigit.ne {radix value : Nat} {c d : Char} (h : IsDigit radix c value)
    (hd : d.toLower ∉ digitAlphabet) : c ≠ d := by
  rintro rfl
  exact hd (List.mem_of_getElem? h.2)

/-- Digits below ten have only one case. -/
theorem IsDigit.mem_take {radix value : Nat} {c : Char} (h : IsDigit radix c value)
    (hradix : radix ≤ 10) : c ∈ digitAlphabet.take radix := by
  have hvalue : value < radix := h.1
  refine List.mem_of_getElem? (i := value) ?_
  rw [List.getElem?_take_of_lt hvalue, getElem?_digitAlphabet]
  have hdigit := isDigit_iff.1 h
  omega

/-! ## Runs of digits -/

/-- The digits of a run are digits. -/
theorem PlaceValue.isDigit {radix n : Nat} {ds : List Char} (h : PlaceValue radix ds n) :
    ∀ c ∈ ds, ∃ value, IsDigit radix c value := by
  obtain ⟨values, hvalues, -⟩ := h
  intro c hc
  induction hvalues with
  | nil => cases hc
  | cons hvalue _ ih =>
    rcases List.mem_cons.1 hc with rfl | hc
    · exact ⟨_, hvalue⟩
    · exact ih hc

@[simp] theorem placeValue_nil_iff {radix n : Nat} : PlaceValue radix [] n ↔ n = 0 := by
  constructor
  · rintro ⟨values, hvalues, rfl⟩
    cases hvalues
    rfl
  · rintro rfl
    exact ⟨[], .nil, rfl⟩

/-- The first digit counts as often as the radix has powers for the digits behind it. -/
theorem placeValue_cons_iff {radix n : Nat} {c : Char} {ds : List Char} :
    PlaceValue radix (c :: ds) n ↔
      ∃ value m, IsDigit radix c value ∧ PlaceValue radix ds m ∧
        n = value * radix ^ ds.length + m := by
  have hcons : ∀ {value : Nat} {values : List Nat}, List.Forall₂ (IsDigit radix) ds values →
      Nat.ofDigits radix (value :: values).reverse
        = value * radix ^ ds.length + Nat.ofDigits radix values.reverse := by
    intro value values hvalues
    rw [List.reverse_cons, Nat.ofDigits_append, List.length_reverse, hvalues.length_eq,
      Nat.ofDigits_singleton]
    ring
  constructor
  · rintro ⟨values, hvalues, rfl⟩
    cases hvalues with
    | cons hvalue hvalues => exact ⟨_, _, hvalue, ⟨_, hvalues, rfl⟩, hcons hvalues⟩
  · rintro ⟨value, m, hvalue, ⟨values, hvalues, rfl⟩, rfl⟩
    exact ⟨value :: values, .cons hvalue hvalues, (hcons hvalues).symm⟩

/-- One more digit at the end. -/
theorem PlaceValue.concat {radix m n value : Nat} {ds : List Char} {c : Char}
    (h : PlaceValue radix ds m) (hc : IsDigit radix c value) (hn : n = value + radix * m) :
    PlaceValue radix (ds ++ [c]) n := by
  obtain ⟨values, hvalues, rfl⟩ := h
  refine ⟨values ++ [value], List.rel_append hvalues (.cons hc .nil), ?_⟩
  rw [List.reverse_concat, Nat.ofDigits_cons, hn]

/-- Reading on from a number: the digits read before count for more. -/
theorem foldlM_digits_eq_some_iff {radix start n : Nat} {ds : List Char} :
    ds.foldlM (fun n c => (digitValue? radix c).map (n * radix + ·)) start = some n ↔
      ∃ m, PlaceValue radix ds m ∧ n = start * radix ^ ds.length + m := by
  induction ds generalizing start with
  | nil => simp [eq_comm]
  | cons c ds ih =>
    rw [List.foldlM_cons]
    constructor
    · intro h
      obtain ⟨next, hnext, hrest⟩ := Option.bind_eq_some_iff.1 h
      obtain ⟨value, hvalue, rfl⟩ := Option.map_eq_some_iff.1 hnext
      obtain ⟨m, hm, rfl⟩ := ih.1 hrest
      refine ⟨_, placeValue_cons_iff.2 ⟨value, m, digitValue?_eq_some_iff.1 hvalue, hm, rfl⟩, ?_⟩
      rw [List.length_cons, pow_succ]
      ring
    · rintro ⟨_, hplace, rfl⟩
      obtain ⟨value, m, hvalue, hm, rfl⟩ := placeValue_cons_iff.1 hplace
      refine Option.bind_eq_some_iff.2 ⟨start * radix + value, ?_, ih.2 ⟨m, hm, ?_⟩⟩
      · rw [digitValue?_eq_some_iff.2 hvalue, Option.map_some]
      · rw [List.length_cons, pow_succ]
        ring

/-- A run that is not empty is read as the number that it stands for. -/
theorem readDigits?_eq_some_iff {radix n : Nat} {ds : List Char} :
    readDigits? radix ds = some n ↔ ds ≠ [] ∧ PlaceValue radix ds n := by
  unfold readDigits?
  cases ds with
  | nil => simp
  | cons c ds =>
    rw [if_neg (by simp), foldlM_digits_eq_some_iff]
    simp

instance (radix : Nat) : (ds : List Char) → (n : Nat) → Decidable (PlaceValue radix ds n)
  | [], n => decidable_of_iff (n = 0) placeValue_nil_iff.symm
  | c :: ds, n =>
    decidable_of_iff (readDigits? radix (c :: ds) = some n)
      (readDigits?_eq_some_iff.trans (and_iff_right (by simp)))

end HostLisp
