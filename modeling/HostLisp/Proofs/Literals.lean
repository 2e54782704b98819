import HostLisp.Number
import HostLisp.Proofs.Escapes
import HostLisp.Proofs.TokenLanguage

/-!
# Literals as tokens

The texts that stand for numbers and strings are texts of number and string tokens: whatever has a
value is a number token (`numberText_of_integerLiteral?`), and whatever is read as a string is a
string token (`Quoted.stringText_of_decodeChars`).  The converse does not hold, as a number may be
out of range and an escape may be wrong.
-/

namespace HostLisp

open Text

/-! ## Numbers -/

theorem Numeral.spell_of_magnitude? {cs : List Char} {n : Nat} (h : magnitude? cs = some n) :
    Digits.decimal.Spell cs ∨ Digits.hexadecimal.Spell cs := by
  have hhexadecimal : ∀ {mark : Char} {rest : List Char}, mark = 'x' ∨ mark = 'X' →
      readDigits? 16 rest = some n → Digits.hexadecimal.Spell ('0' :: mark :: rest) := by
    intro mark rest hmark hrest
    refine ⟨mark, rest, rfl, hmark, fun c hc => ?_⟩
    obtain ⟨value, hvalue⟩ := (readDigits?_eq_some_iff.1 hrest).2.isDigit c hc
    exact hvalue.isHexadecimal
  unfold magnitude? at h
  split at h
  case h_1 => exact .inr (hhexadecimal (.inl rfl) h)
  case h_2 => exact .inr (hhexadecimal (.inr rfl) h)
  case h_3 =>
    obtain ⟨hne, hplace⟩ := readDigits?_eq_some_iff.1 h
    refine .inl ⟨hne, fun c hc => ?_⟩
    obtain ⟨value, hvalue⟩ := hplace.isDigit c hc
    exact hvalue.isDecimal

theorem Numeral.numberText_of_ofChars? {cs : List Char} {numeral : Numeral}
    (h : ofChars? cs = some numeral) : NumberText cs := by
  have hsigned : ∀ {sign rest : List Char} {negative : Bool}, OptionalSign sign →
      (magnitude? rest).map (⟨negative, ·⟩) = some numeral → NumberText (sign ++ rest) := by
    intro sign rest negative hsign hrest
    obtain ⟨n, hn, -⟩ := Option.map_eq_some_iff.1 hrest
    exact ⟨sign, rest, rfl, hsign, spell_of_magnitude? hn⟩
  unfold ofChars? at h
  split at h
  case h_1 rest => exact hsigned (.inr ⟨'-', rfl, rfl⟩) h
  case h_2 rest => exact hsigned (.inr ⟨'+', rfl, rfl⟩) h
  case h_3 => exact hsigned (.inl rfl) h

/-- What has a value is a number token. -/
theorem numberText_of_integerLiteral? {text : String} {value : Int64}
    (h : integerLiteral? text = some value) : NumberText text.toList := by
  obtain ⟨signed, hsigned, -⟩ := Option.bind_eq_some_iff.1 h
  obtain ⟨numeral, hnumeral, -⟩ := Option.bind_eq_some_iff.1 hsigned
  exact Numeral.numberText_of_ofChars? hnumeral

/-! ## Strings -/

theorem StringBody.of_plain {delimiter : Char} {cs : List Char}
    (h : ∀ c ∈ cs, c ≠ '\\' ∧ c ≠ delimiter) : StringBody delimiter cs := by
  induction cs with
  | nil => exact .nil
  | cons c rest ih =>
    obtain ⟨hslash, hdelimiter⟩ := h c (by simp)
    exact .plain hslash hdelimiter (ih fun d hd => h d (by simp [hd]))

namespace Quoted

theorem stringBody_of_placeValue {delimiter : Char} (hquote : isQuote delimiter = true)
    {radix n : Nat} {ds : List Char} (h : PlaceValue radix ds n) : StringBody delimiter ds := by
  have hdelimiter : delimiter = '"' ∨ delimiter = '\'' := by simpa [isQuote] using hquote
  refine .of_plain fun c hc => ?_
  obtain ⟨value, hvalue⟩ := h.isDigit c hc
  refine ⟨hvalue.ne (by decide), ?_⟩
  rcases hdelimiter with rfl | rfl <;> exact hvalue.ne (by decide)

/-- In a piece only the first character can be a backslash, and what is behind that is no delimiter
but the one that is escaped. -/
theorem Accepted.stringBody {delimiter : Char} (hquote : isQuote delimiter = true) {cs : List Char}
    {c : Char} (h : Accepted delimiter cs c) : StringBody delimiter cs := by
  have hbrace : ∀ {ds : List Char}, StringBody delimiter ds →
      StringBody delimiter ('\\' :: 'u' :: '\x7b' :: ds ++ ['\x7d']) := by
    intro ds hds
    have hdelimiter : delimiter = '"' ∨ delimiter = '\'' := by simpa [isQuote] using hquote
    have hplain : '\x7b' ≠ delimiter ∧ '\x7d' ≠ delimiter := by
      rcases hdelimiter with rfl | rfl <;> decide
    exact .escaped (.plain (by decide) hplain.1
      (hds.append (.plain (by decide) hplain.2 .nil)))
  cases h with
  | signed _ hplace =>
    have hplus : '+' ≠ delimiter := by
      rintro rfl
      exact absurd hquote (by decide)
    exact hbrace (.plain (by decide) hplus (stringBody_of_placeValue hquote hplace))
  | documented h =>
    cases h with
    | plain hslash hdelimiter => exact .plain hslash hdelimiter .nil
    | letter | delimiter => exact .escaped .nil
    | @octal ds _ hlength hplace =>
      obtain ⟨first, ds, rfl⟩ := List.exists_cons_of_length_eq_add_one hlength
      obtain ⟨_, _, -, hds, -⟩ := placeValue_cons_iff.1 hplace
      exact .escaped (stringBody_of_placeValue hquote hds)
    | byte _ hplace | short _ hplace | long _ hplace =>
      exact .escaped (stringBody_of_placeValue hquote hplace)
    | braced _ hplace => exact hbrace (stringBody_of_placeValue hquote hplace)

theorem Spelled.stringBody {delimiter : Char} (hquote : isQuote delimiter = true)
    {cs text : List Char} (h : Spelled (Accepted delimiter) cs text) : StringBody delimiter cs := by
  induction h with
  | nil => exact .nil
  | cons hpiece _ ih => exact (hpiece.stringBody hquote).append ih

/-- What is read as a string is a string token. -/
theorem stringText_of_decodeChars {literal text : List Char} (h : decodeChars literal = .ok text) :
    StringText literal := by
  obtain ⟨delimiter, cs, hquote, hliteral, hspelled⟩ := decodeChars_eq_ok_iff.1 h
  exact ⟨delimiter, cs, hquote, hspelled.stringBody hquote, hliteral⟩

theorem stringText_encode (text : String) : StringText (encode text).toList := by
  rw [encode, String.toList_ofList]
  exact stringText_of_decodeChars (decodeChars_encodeChars rfl text.toList)

end Quoted

end HostLisp
