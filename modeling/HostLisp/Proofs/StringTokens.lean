import HostLisp.Proofs.Literals
import HostLisp.Proofs.Tiling

/-!
# String tokens and string literals

A string literal is gone through twice.  The scanner looks for its end and passes over one character
after each backslash, whatever the escape is.  The reader takes an escape as a whole, however many
characters it has; the braces of an escape it even looks for across backslashes and quotes.  The two
would come apart if an escape could be read that has a backslash or a delimiter further inside.
There is none: pieces that are read are bodies of string tokens by themselves
(`Quoted.Accepted.stringBody`), and a body that begins with such pieces goes on as a body
(`StringBody.of_append`).

So a string token has its delimiters where the reader expects them, and all that can be wrong with
it is an escape.  In the other direction, a text that is read as a string is one token.
-/

namespace HostLisp

open Text

/-! ## Bodies of string tokens -/

theorem StringBody.of_plain_cons {delimiter c : Char} {cs : List Char}
    (h : StringBody delimiter (c :: cs)) (hslash : c ≠ '\\') :
    c ≠ delimiter ∧ StringBody delimiter cs := by
  cases h with
  | plain _ hdelimiter hrest => exact ⟨hdelimiter, hrest⟩
  | escaped => exact absurd rfl hslash

theorem StringBody.of_backslash_cons {delimiter : Char} {cs : List Char}
    (h : StringBody delimiter ('\\' :: cs)) :
    ∃ c rest, cs = c :: rest ∧ StringBody delimiter rest := by
  cases h with
  | plain hslash => exact absurd rfl hslash
  | escaped hrest => exact ⟨_, _, rfl, hrest⟩

/-- What is left of a body after a body is a body. -/
theorem StringBody.of_append {delimiter : Char} {xs ys : List Char} (hxs : StringBody delimiter xs)
    (h : StringBody delimiter (xs ++ ys)) : StringBody delimiter ys := by
  induction hxs with
  | nil => exact h
  | plain hslash _ _ ih => exact ih (h.of_plain_cons hslash).2
  | escaped _ ih =>
    obtain ⟨c, rest, heq, hrest⟩ := h.of_backslash_cons
    obtain ⟨rfl, rfl⟩ := List.cons.inj heq
    exact ih hrest

/-! ## String tokens of a source -/

/-- Every lexeme of a source but the last one fits at its place. -/
theorem Shaped.fits_of_mem {b : Bool} {ls : List Lexeme} (h : Shaped b ls) {l : Lexeme}
    (hl : l ∈ ls) (heof : l.kind ≠ .eof) (herror : l.kind ≠ .error) : ∃ b', l.Fits b' := by
  induction h with
  | eof =>
    obtain rfl := List.mem_singleton.1 hl
    exact absurd rfl heof
  | error =>
    obtain rfl := List.mem_singleton.1 hl
    exact absurd rfl herror
  | cons hfits _ ih =>
    rcases List.mem_cons.1 hl with rfl | hl
    · exact ⟨_, hfits⟩
    · exact ih hl

theorem stringText_of_mem_tokenize {source : String} {t : Token} (ht : t ∈ tokenize source)
    (hkind : t.kind = .string) : StringText t.text.toList := by
  have hmem : t.lexeme ∈ (tokenize source).map Token.lexeme := List.mem_map_of_mem ht
  have hkind' : t.lexeme.kind = .string := hkind
  obtain ⟨b, hfits⟩ := (tokenize_shaped source).fits_of_mem hmem (by simp [hkind'])
    (by simp [hkind'])
  obtain ⟨kind, text, start, stop, line⟩ := t
  subst hkind
  cases hfits with
  | string hstring => exact hstring

/-! ## What can be wrong with an escape -/

/-- Whether the error is about what an escape is spelled with, and not about the delimiters or the
end of the literal. -/
def QuoteError.concernsEscape : QuoteError → Bool
  | .missingDelimiters | .mismatchedDelimiters | .bareDelimiter _ | .trailingBackslash => false
  | .shortOctal | .shortHexadecimal | .notAscii _ _ | .unclosedBrace | .invalidScalar
  | .unknownEscape _ => true

namespace Quoted

theorem concernsEscape_of_ascii {kind : ByteEscape} {n : Nat} {e : QuoteError}
    (h : ascii kind n = .error e) : e.concernsEscape = true := by
  unfold ascii at h
  split at h <;> cases h
  rfl

theorem concernsEscape_of_scalar {n? : Option Nat} {e : QuoteError} (h : scalar n? = .error e) :
    e.concernsEscape = true := by
  unfold scalar at h
  split at h <;> cases h
  rfl

theorem concernsEscape_of_bracedEscape {rest : List Char} {e : QuoteError}
    (h : bracedEscape rest = .error e) : e.concernsEscape = true := by
  unfold bracedEscape at h
  simp only at h
  split at h
  case isTrue =>
    cases hscalar : scalar (braced? (rest.takeWhile (· ≠ '\x7d'))) with
    | ok c => rw [hscalar] at h; cases h
    | error e' =>
      rw [hscalar] at h
      cases h
      exact concernsEscape_of_scalar hscalar
  case isFalse =>
    cases h
    rfl

/-- With a character after the backslash, the escape is what is wrong. -/
theorem concernsEscape_of_escape {delimiter c : Char} {rest : List Char} {e : QuoteError}
    (h : escape delimiter (c :: rest) = .error e) : e.concernsEscape = true := by
  unfold escape at h
  split at h
  case h_1 heq => cases heq
  case h_2 =>
    split at h
    case h_1 => cases h
    case h_2 =>
      split at h
      case h_1 =>
        split at h
        case h_1 => exact concernsEscape_of_ascii (Except.map_eq_error_iff.1 h)
        case h_2 => cases h; rfl
      case h_2 => exact concernsEscape_of_bracedEscape (Except.map_eq_error_iff.1 h)
      case h_3 => exact concernsEscape_of_scalar (Except.map_eq_error_iff.1 h)
      case h_4 => exact concernsEscape_of_scalar (Except.map_eq_error_iff.1 h)
      case h_5 =>
        split at h
        case h_1 => cases h; rfl
        case h_2 =>
          split at h
          case h_1 => exact concernsEscape_of_ascii (Except.map_eq_error_iff.1 h)
          case h_2 => cases h; rfl

/-- Where the scanner sees the rest of a body, the reader stops at nothing but an escape. -/
theorem Refuses.exists_escape {delimiter : Char} (hquote : isQuote delimiter = true)
    {e : QuoteError} {cs : List Char} (h : Refuses delimiter e cs)
    (hbody : StringBody delimiter cs) :
    ∃ c rest, cs = '\\' :: c :: rest ∧ escape delimiter (c :: rest) = .error e := by
  cases h with
  | malformed hescape =>
    obtain ⟨c, rest, rfl, -⟩ := hbody.of_backslash_cons
    exact ⟨c, rest, rfl, hescape⟩
  | bare => exact absurd rfl (hbody.of_plain_cons (delimiter_ne_backslash hquote)).1

/-- A string token that is not read has an escape that is not read, behind pieces that are. -/
theorem exists_escape_of_stringText {literal : List Char} (h : StringText literal) {e : QuoteError}
    (herror : decodeChars literal = .error e) :
    ∃ delimiter before text c rest, isQuote delimiter = true ∧
      literal = delimiter :: (before ++ '\\' :: c :: rest) ++ [delimiter] ∧
      Spelled (Accepted delimiter) before text ∧ escape delimiter (c :: rest) = .error e := by
  obtain ⟨delimiter, cs, hquote, hcs, rfl⟩ := h
  rw [decodeChars_quoted hquote] at herror
  obtain ⟨before, tail, text, rfl, hbefore, hrefuses⟩ := body_eq_error hquote herror
  have htail : StringBody delimiter tail := (hbefore.stringBody hquote).of_append hcs
  obtain ⟨c, rest, rfl, hescape⟩ := hrefuses.exists_escape hquote htail
  exact ⟨delimiter, before, text, c, rest, hquote, rfl, hbefore, hescape⟩

end Quoted

/-! ## Scanner and reader -/

/-- A text that is a string literal for the scanner is a single token. -/
theorem tokenize_of_stringText {literal : String} (h : StringText literal.toList) :
    tokenize literal =
      [⟨.string, literal, 0, literal.utf8ByteSize, 1⟩,
        ⟨.eof, "", literal.utf8ByteSize, literal.utf8ByteSize, 1 + literal.toList.count '\n'⟩] := by
  have hoffset : (Position.origin.after literal.toList).offset = literal.utf8ByteSize := by
    have hsize := congrArg ByteArray.size (toUTF8_of_toList (Eq.refl literal.toList))
    rw [Position.offset_after, Position.origin, Nat.zero_add, ← hsize]
    rfl
  have hline : (Position.origin.after literal.toList).line = 1 + literal.toList.count '\n' :=
    Position.line_after_eq .origin literal.toList
  have hscan := Scanner.scan_string h .origin []
  rw [List.append_nil, String.ofList_toList, hoffset] at hscan
  have hend : ∀ p : Position,
      (Scanner.awaiting false p).scan p [] = [⟨.eof, "", p.offset, p.offset, p.line⟩] :=
    fun _ => rfl
  rw [hend, hoffset, hline] at hscan
  exact hscan

/-- **Scanner and reader agree on string literals.** If a string token is not read, then because of
an escape in it, behind pieces that can be read; and a text that is read is one string token. -/
theorem scanner_and_reader_agree_on_strings :
    (∀ source, ∀ t ∈ tokenize source, t.kind = .string → ∀ e, Quoted.decode t.text = .error e →
      e.concernsEscape = true ∧
      ∃ delimiter before text c rest, isQuote delimiter = true ∧
        t.text.toList = delimiter :: (before ++ '\\' :: c :: rest) ++ [delimiter] ∧
        Quoted.Spelled (Quoted.Accepted delimiter) before text ∧
        Quoted.escape delimiter (c :: rest) = .error e) ∧
    (∀ literal text, Quoted.decode literal = .ok text →
      tokenize literal =
        [⟨.string, literal, 0, literal.utf8ByteSize, 1⟩,
          ⟨.eof, "", literal.utf8ByteSize, literal.utf8ByteSize,
            1 + literal.toList.count '\n'⟩]) := by
  refine ⟨fun source t ht hkind e herror => ?_, fun literal text h => ?_⟩
  · have hstring := stringText_of_mem_tokenize ht hkind
    obtain ⟨delimiter, before, text, c, rest, hquote, hliteral, hbefore, hescape⟩ :=
      Quoted.exists_escape_of_stringText hstring (Except.map_eq_error_iff.1 herror)
    exact ⟨Quoted.concernsEscape_of_escape hescape, delimiter, before, text, c, rest, hquote,
      hliteral, hbefore, hescape⟩
  · obtain ⟨chars, hchars, -⟩ := Except.map_eq_ok_iff.1 h
    exact tokenize_of_stringText (Quoted.stringText_of_decodeChars hchars)

/-- A token with an escaped quote between the braces of an escape, and a literal over two lines. -/
theorem quote_in_braces_agrees :
    (⟨.string, "\"\\u\x7b\\\"\x7d\"", 3, 11, 1⟩ ∈ tokenize "(f \"\\u\x7b\\\"\x7d\")") ∧
      Quoted.decode "\"\\u\x7b\\\"\x7d\"" = .error .invalidScalar ∧
      QuoteError.invalidScalar.concernsEscape = true ∧
      Quoted.decode "'\n\\u\x7b22\x7d'" = .ok "\n\"" ∧
      tokenize "'\n\\u\x7b22\x7d'"
        = [⟨.string, "'\n\\u\x7b22\x7d'", 0, 9, 1⟩, ⟨.eof, "", 9, 9, 2⟩] := by
  have htoken : (⟨.string, "\"\\u\x7b\\\"\x7d\"", 3, 11, 1⟩ : Token)
      ∈ tokenize "(f \"\\u\x7b\\\"\x7d\")" := by decide
  obtain ⟨hstrings, hliterals⟩ := scanner_and_reader_agree_on_strings
  exact ⟨htoken, rfl, (hstrings _ _ htoken rfl _ rfl).1, rfl, hliterals _ "\n\"" rfl⟩

end HostLisp
