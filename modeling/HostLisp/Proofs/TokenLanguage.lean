import HostLisp.Node.Render
import HostLisp.Token.Scan

/-!
# The token language

What the tokens of a source can be, said without the scanner: which texts a token of each kind can
have, and which kinds can follow each other.  The one rule of order is that an opening parenthesis
is followed by the first word of a form, and that such words stand nowhere else.

A `Lexeme` fits at its place (`Lexeme.Fits`) by its kind, its text, and whether it stands right
after an opening parenthesis.  The tokens of a source (`Shaped`) are lexemes that fit, and then the
end of the source or an error.

The main result, `tokenize_shaped`, says that the scanner reads every source as this language has
it.  What carries it is an invariant of the scanner (`Scanner.Reads`): for each shape that the
scanner can be in, which characters it can have read since the last token.  One character keeps the
invariant and completes only lexemes that fit (`Scanner.step_sound`).
-/

namespace HostLisp

open Text

/-- A token without its place. -/
def Token.lexeme (t : Token) : Lexeme := ⟨t.kind, t.text⟩

/-! ## The texts of tokens -/

theorem not_endsWord {c : Char} (hblank : ¬ isBlank c = true) (hclose : c ≠ ')') :
    endsWord c = false := by
  simp [endsWord, hblank, hclose]

/-- No blank and no closing parenthesis. -/
def Unbroken (cs : List Char) : Prop := ∀ c ∈ cs, endsWord c = false

instance (cs : List Char) : Decidable (Unbroken cs) :=
  decidable_of_iff (cs.all fun c => !endsWord c) (by simp [Unbroken])

theorem Unbroken.concat {cs : List Char} {c : Char} (h : Unbroken cs) (hc : endsWord c = false) :
    Unbroken (cs ++ [c]) := by
  intro x hx
  rcases List.mem_append.1 hx with hx | hx
  · exact h x hx
  · exact List.mem_singleton.1 hx ▸ hc

/-- A sign. -/
def isSign (c : Char) : Bool := c = '+' || c = '-'

/-- A sign and a digit, which begin a number. -/
def beginsSigned : List Char → Bool
  | sign :: digit :: _ => isSign sign && isDecimal digit
  | _ => false

/-- A word that begins neither a number, nor a string, nor a form. -/
structure BareWord (cs : List Char) : Prop where
  nonempty : cs ≠ []
  unbroken : Unbroken cs
  first : ∀ c ∈ cs.head?, isDecimal c = false ∧ c ≠ '(' ∧ isQuote c = false
  unsigned : beginsSigned cs = false

instance (cs : List Char) : Decidable (BareWord cs) :=
  decidable_of_iff (cs ≠ [] ∧ Unbroken cs ∧
      cs.head?.all (fun c => !isDecimal c && c ≠ '(' && !isQuote c) ∧ beginsSigned cs = false)
    ⟨fun ⟨h₁, h₂, h₃, h₄⟩ => ⟨h₁, h₂, by simpa [Option.all_eq_true, and_assoc] using h₃, h₄⟩,
      fun ⟨h₁, h₂, h₃, h₄⟩ => ⟨h₁, h₂, by simpa [Option.all_eq_true, and_assoc] using h₃, h₄⟩⟩

theorem bareWord_of_sign {c : Char} (h : isSign c = true) : BareWord [c] := by
  have hsign : c = '+' ∨ c = '-' := by simpa [isSign] using h
  refine ⟨by simp, ?_, ?_, rfl⟩
  · rcases hsign with rfl | rfl <;> decide
  · rcases hsign with rfl | rfl <;> rintro _ ⟨⟩ <;> decide

/-- A word goes on with anything that does not end it, except that a sign by itself does not go on
with a digit. -/
theorem BareWord.concat {cs : List Char} {c : Char} (h : BareWord cs) (hc : endsWord c = false)
    (hsign : ∀ sign, cs = [sign] → isSign sign = true → isDecimal c = false) :
    BareWord (cs ++ [c]) := by
  match cs, h.nonempty with
  | [first], _ =>
    refine ⟨by simp, h.unbroken.concat hc, h.first, ?_⟩
    cases hs : isSign first <;> simp [beginsSigned, hs, hsign]
  | first :: second :: rest, _ =>
    exact ⟨by simp, h.unbroken.concat hc, h.first, h.unsigned⟩

/-- The text of a variable. -/
def VariableWord (cs : List Char) : Prop := BareWord cs ∧ cs.head? ≠ some '#'

instance (cs : List Char) : Decidable (VariableWord cs) :=
  inferInstanceAs (Decidable (BareWord cs ∧ cs.head? ≠ some '#'))

/-- The text of a boolean, right or wrong. -/
def BoolWord (cs : List Char) : Prop := Unbroken cs ∧ cs.head? = some '#'

/-- The text of the word that begins a definition. -/
def defineChars : List Char := ['d', 'e', 'f', 'i', 'n', 'e']

/-- The text of the first word of a form that is no definition.  A definition may go on with an
opening parenthesis at once, so such a word does not begin like that either. -/
structure CallWord (cs : List Char) : Prop where
  nonempty : cs ≠ []
  unbroken : Unbroken cs
  not_define : cs ≠ defineChars
  not_defineOpen : ¬ defineChars ++ ['('] <+: cs

instance (cs : List Char) : Decidable (CallWord cs) :=
  decidable_of_iff (cs ≠ [] ∧ Unbroken cs ∧ cs ≠ defineChars ∧ ¬ defineChars ++ ['('] <+: cs)
    ⟨fun ⟨h₁, h₂, h₃, h₄⟩ => ⟨h₁, h₂, h₃, h₄⟩, fun ⟨h₁, h₂, h₃, h₄⟩ => ⟨h₁, h₂, h₃, h₄⟩⟩

/-- The digits of a number, with the mark of their base. -/
def Digits.Spell : Digits → List Char → Prop
  | .leadingZero, cs => cs = ['0']
  | .decimal, cs => cs ≠ [] ∧ ∀ c ∈ cs, isDecimal c = true
  | .hexadecimal, cs =>
    ∃ mark rest, cs = '0' :: mark :: rest ∧ (mark = 'x' ∨ mark = 'X') ∧
      ∀ c ∈ rest, isHexadecimal c = true

/-- At most one sign. -/
def OptionalSign (cs : List Char) : Prop := cs = [] ∨ ∃ c, cs = [c] ∧ isSign c = true

/-- The text of a number. -/
def NumberText (cs : List Char) : Prop :=
  ∃ sign digits, cs = sign ++ digits ∧ OptionalSign sign ∧
    (Digits.decimal.Spell digits ∨ Digits.hexadecimal.Spell digits)

theorem Digits.Spell.numberText {digits : Digits} {sign cs : List Char} (hsign : OptionalSign sign)
    (h : digits.Spell cs) : NumberText (sign ++ cs) := by
  refine ⟨sign, cs, rfl, hsign, ?_⟩
  cases digits with
  | leadingZero =>
    obtain rfl : cs = ['0'] := h
    exact .inl ⟨by simp, List.forall_mem_singleton.2 rfl⟩
  | decimal => exact .inl h
  | hexadecimal => exact .inr h

/-- The digits go on as they should. -/
theorem Digits.Spell.extend {digits digits' : Digits} {cs : List Char} {c : Char}
    (h : digits.Spell cs) (hextend : digits.extend? c = some digits') :
    digits'.Spell (cs ++ [c]) := by
  have hmem : ∀ {p : Char → Bool} {xs : List Char}, (∀ x ∈ xs, p x = true) → p c = true →
      ∀ x ∈ xs ++ [c], p x = true := by
    intro p xs hxs hc x hx
    rcases List.mem_append.1 hx with hx | hx
    · exact hxs x hx
    · exact List.mem_singleton.1 hx ▸ hc
  cases digits with
  | leadingZero =>
    obtain rfl : cs = ['0'] := h
    simp only [Digits.extend?] at hextend
    split at hextend
    case isTrue hmark =>
      cases hextend
      exact ⟨c, [], rfl, by simpa using hmark, by simp⟩
    case isFalse =>
      split at hextend
      case isTrue hc =>
        cases hextend
        exact ⟨by simp, hmem (List.forall_mem_singleton.2 rfl) hc⟩
      case isFalse => cases hextend
  | decimal =>
    simp only [Digits.extend?] at hextend
    split at hextend
    case isTrue hc =>
      cases hextend
      exact ⟨by simp, hmem h.2 hc⟩
    case isFalse => cases hextend
  | hexadecimal =>
    simp only [Digits.extend?] at hextend
    split at hextend
    case isTrue hc =>
      cases hextend
      obtain ⟨mark, rest, rfl, hmark, hrest⟩ := h
      exact ⟨mark, rest ++ [c], by simp, hmark, hmem hrest hc⟩
    case isFalse => cases hextend

/-- The characters between the delimiters of a string: every backslash has a character after it, and
the delimiter stands only there. -/
inductive StringBody (delimiter : Char) : List Char → Prop where
  | nil : StringBody delimiter []
  | plain {c : Char} {rest : List Char} :
    c ≠ '\\' → c ≠ delimiter → StringBody delimiter rest → StringBody delimiter (c :: rest)
  | escaped {c : Char} {rest : List Char} :
    StringBody delimiter rest → StringBody delimiter ('\\' :: c :: rest)

theorem StringBody.append {delimiter : Char} {xs ys : List Char} (hxs : StringBody delimiter xs)
    (hys : StringBody delimiter ys) : StringBody delimiter (xs ++ ys) := by
  induction hxs with
  | nil => exact hys
  | plain h₁ h₂ _ ih => exact .plain h₁ h₂ ih
  | escaped _ ih => exact .escaped ih

/-- The text of a string literal, delimiters included. -/
def StringText (cs : List Char) : Prop :=
  ∃ delimiter body, isQuote delimiter = true ∧ StringBody delimiter body ∧
    cs = delimiter :: body ++ [delimiter]

/-! ## Tokens at their places -/

/-- The lexemes of a source before its end, by whether they stand right after an opening
parenthesis. -/
inductive Lexeme.Fits : (afterOpening : Bool) → Lexeme → Prop where
  | opening : Fits false .opening
  | closing : Fits false .closing
  | define : Fits true ⟨.define, "define"⟩
  | call {text : String} : CallWord text.toList → Fits true ⟨.call, text⟩
  | word {text : String} : VariableWord text.toList → Fits false ⟨.word, text⟩
  | bool {text : String} : BoolWord text.toList → Fits false ⟨.bool, text⟩
  | number {text : String} : NumberText text.toList → Fits false ⟨.number, text⟩
  | string {text : String} : StringText text.toList → Fits false ⟨.string, text⟩

/-- Whether the lexeme after this one stands right after an opening parenthesis. -/
def Lexeme.opens (l : Lexeme) : Bool := l.kind = .leftParen

/-- Lexemes in a row that fit, from one place to another. -/
def Fitting : (before : Bool) → List Lexeme → (after : Bool) → Prop
  | before, [], after => before = after
  | before, l :: rest, after => l.Fits before ∧ Fitting l.opens rest after

/-- The lexemes of a whole source. -/
inductive Shaped : (afterOpening : Bool) → List Lexeme → Prop where
  | eof : Shaped false [⟨.eof, ""⟩]
  | error {b : Bool} {message : String} : Shaped b [⟨.error, message⟩]
  | cons {b : Bool} {l : Lexeme} {rest : List Lexeme} :
    l.Fits b → Shaped l.opens rest → Shaped b (l :: rest)

theorem Fitting.append_shaped {b b' : Bool} {ls rest : List Lexeme} (h : Fitting b ls b')
    (hrest : Shaped b' rest) : Shaped b (ls ++ rest) := by
  induction ls generalizing b with
  | nil => exact (show b = b' from h) ▸ hrest
  | cons l ls ih => exact .cons h.1 (ih h.2)

/-- The first token is the end, an error, or a lexeme that fits with the others behind it. -/
theorem Shaped.first {b : Bool} {t : Token} {rest : List Token}
    (h : Shaped b ((t :: rest).map Token.lexeme)) :
    t.kind = .eof ∨ t.kind = .error ∨
      t.lexeme.Fits b ∧ Shaped t.lexeme.opens (rest.map Token.lexeme) := by
  generalize hls : (t :: rest).map Token.lexeme = ls at h
  cases h with
  | eof => exact .inl (congrArg Lexeme.kind (List.cons.inj hls).1)
  | error => exact .inr (.inl (congrArg Lexeme.kind (List.cons.inj hls).1))
  | cons hfits hrest =>
    obtain ⟨rfl, rfl⟩ := List.cons.inj hls
    exact .inr (.inr ⟨hfits, hrest⟩)

/-! ## What the scanner has read -/

/-- The characters that the scanner can have read since the last token. -/
def Shape.Holds : Shape → List Char → Prop
  | .gap, cs => cs = []
  | .head, cs => Unbroken cs ∧ ¬ defineChars ++ ['('] <+: cs
  | .sign, cs => ∃ c, cs = [c] ∧ isSign c = true
  | .number digits, cs => ∃ sign rest, cs = sign ++ rest ∧ OptionalSign sign ∧ digits.Spell rest
  | .quoted delimiter escaped, cs =>
    isQuote delimiter = true ∧ ∃ body, StringBody delimiter body ∧
      cs = delimiter :: body ++ if escaped then ['\\'] else []
  | .word, cs => BareWord cs ∧ ∀ sign, cs = [sign] → isSign sign = false
  | .halted, _ => False

namespace Scanner

/-- The scanner is still reading, and has read what its shape says. -/
def Reads (s : Scanner) : Prop := s.shape.Holds s.read.reverse

/-- Whether a token that is read next stands right after an opening parenthesis. -/
def afterOpening (s : Scanner) : Bool := s.shape = .head

/-- What one character leads to: an error, or lexemes that fit and a scanner that still reads. -/
def Sound (before : Bool) (result : List Token × Scanner) : Prop :=
  (∃ message, result.1.map Token.lexeme = [⟨.error, message⟩] ∧ result.2.shape = .halted) ∨
  (result.2.Reads ∧ Fitting before (result.1.map Token.lexeme) result.2.afterOpening)

/-! ## Finished tokens -/

@[simp] theorem lexeme_emit (s : Scanner) (kind : TokenKind) (stop : Position) :
    (s.emit kind stop).lexeme = ⟨kind, String.ofList s.read.reverse⟩ := rfl

theorem fits_word {s : Scanner} (h : BareWord s.read.reverse) :
    (⟨s.wordKind, String.ofList s.read.reverse⟩ : Lexeme).Fits false := by
  unfold wordKind
  rw [← List.head?_reverse]
  split
  case isTrue hhash => exact .bool (by simpa using ⟨h.unbroken, hhash⟩)
  case isFalse hhash => exact .word (by simpa using ⟨h, hhash⟩)

theorem wordKind_opens (s : Scanner) (text : String) :
    (⟨s.wordKind, text⟩ : Lexeme).opens = false := by
  unfold wordKind
  split <;> rfl

theorem fits_head {s : Scanner} (hne : s.read ≠ []) (h : Shape.head.Holds s.read.reverse) :
    (⟨s.headKind, String.ofList s.read.reverse⟩ : Lexeme).Fits true := by
  unfold headKind atDefine
  by_cases hdefine : s.read.reverse = defineChars
  · rw [if_pos (by simpa [defineChars] using hdefine), hdefine]
    exact .define
  · rw [if_neg (by simpa [defineChars] using hdefine)]
    refine .call ?_
    rw [String.toList_ofList]
    exact ⟨by simpa using hne, h.1, hdefine, h.2⟩

/-! ## One character -/

/-- A beginning. -/
theorem begin_sound (p : Position) (c : Char) :
    (begin p c).2.Reads ∧
      Fitting false ((begin p c).1.map Token.lexeme) (begin p c).2.afterOpening := by
  unfold begin
  simp only
  split
  case isTrue => exact ⟨rfl, rfl⟩
  case isFalse hblank =>
    split
    case isTrue => exact ⟨⟨by simp [Unbroken], by simp⟩, .opening, rfl⟩
    case isFalse hopen =>
      split
      case isTrue => exact ⟨rfl, .closing, rfl⟩
      case isFalse hclose =>
        have hword := not_endsWord hblank hclose
        unfold opening
        split
        case isTrue hsign => exact ⟨⟨c, rfl, by simpa [isSign] using hsign⟩, rfl⟩
        case isFalse hsign =>
          split
          case isTrue hzero => exact ⟨⟨[], ['0'], by simp [hzero], .inl rfl, rfl⟩, rfl⟩
          case isFalse hzero =>
            split
            case isTrue hdigit =>
              exact ⟨⟨[], [c], rfl, .inl rfl, by simp, by simpa using hdigit⟩, rfl⟩
            case isFalse hdigit =>
              split
              case isTrue hquote => exact ⟨⟨hquote, [], .nil, rfl⟩, rfl⟩
              case isFalse hquote =>
                refine ⟨⟨⟨by simp, by simpa [Unbroken] using hword, ?_, rfl⟩, ?_⟩, rfl⟩
                · rintro _ ⟨⟩
                  exact ⟨by simpa using hdigit, hopen, by simpa using hquote⟩
                · rintro _ ⟨⟩
                  simpa [isSign] using hsign

theorem finishThen_sound {s : Scanner} {kind : TokenKind} (p : Position) (c : Char) {before : Bool}
    (h : (⟨kind, String.ofList s.read.reverse⟩ : Lexeme).Fits before)
    (hopens : (⟨kind, String.ofList s.read.reverse⟩ : Lexeme).opens = false) :
    Sound before (s.finishThen kind p c) := by
  obtain ⟨hreads, hfitting⟩ := begin_sound p c
  exact .inr ⟨hreads, h, hopens.symm ▸ hfitting⟩

theorem reads_push {s : Scanner} {shape : Shape} {c : Char}
    (h : shape.Holds (s.read.reverse ++ [c])) : (s.push shape c).Reads := by
  simpa [Reads, push] using h

/-- One more character of the same token. -/
theorem push_sound {s : Scanner} {shape : Shape} {c : Char} (hshape : shape ≠ .head)
    (h : shape.Holds (s.read.reverse ++ [c])) : Sound false ([], s.push shape c) :=
  .inr ⟨reads_push h, by simp [Fitting, afterOpening, push, hshape]⟩

theorem step_head_sound {s : Scanner} (p : Position) (c : Char) (hshape : s.shape = .head)
    (h : Shape.head.Holds s.read.reverse) : Sound true (s.step p c) := by
  unfold step
  simp only [hshape]
  split
  case isTrue hend =>
    split
    case isTrue hempty =>
      split
      case isTrue => exact .inr ⟨by simpa [Reads, hshape] using h, by simp [Fitting, afterOpening]⟩
      case isFalse => exact .inl ⟨_, rfl, rfl⟩
    case isFalse hne =>
      refine finishThen_sound p c (fits_head (by simpa using hne) h) ?_
      unfold headKind
      split <;> rfl
  case isFalse hend =>
    split
    case isTrue hdefine =>
      have hread : s.read.reverse = defineChars := by
        rw [Bool.and_eq_true] at hdefine
        exact of_decide_eq_true hdefine.2
      refine finishThen_sound p c ?_ rfl
      rw [hread]
      exact .define
    case isFalse hdefine =>
      refine .inr ⟨reads_push ⟨h.1.concat (by simpa using hend), fun hprefix => ?_⟩, rfl⟩
      -- What is new is the last character, so it completes the forbidden beginning.
      rcases List.prefix_concat_iff.1 hprefix with heq | hold
      · obtain ⟨hread, hc⟩ := List.append_inj' heq rfl
        simp only [List.cons.injEq, and_true] at hc
        exact hdefine (by simp [← hc, atDefine, ← hread, defineChars])
      · exact h.2 hold

theorem step_sign_sound {s : Scanner} (p : Position) (c : Char) (hshape : s.shape = .sign)
    (h : Shape.sign.Holds s.read.reverse) : Sound false (s.step p c) := by
  obtain ⟨sign, hread, hsign⟩ := h
  unfold step
  simp only [hshape]
  split
  case isTrue hzero =>
    exact push_sound (by simp) ⟨[sign], ['0'], by rw [hread, hzero], .inr ⟨sign, rfl, hsign⟩, rfl⟩
  case isFalse hzero =>
    split
    case isTrue hdigit =>
      exact push_sound (by simp)
        ⟨[sign], [c], by rw [hread], .inr ⟨sign, rfl, hsign⟩, by simp, by simpa using hdigit⟩
    case isFalse hdigit =>
      have hword : BareWord s.read.reverse := by
        rw [hread]
        exact bareWord_of_sign hsign
      split
      case isTrue hend => exact finishThen_sound p c (fits_word hword) (wordKind_opens s _)
      case isFalse hend =>
        refine push_sound (by simp) ⟨hword.concat (by simpa using hend) ?_, by simp [hread]⟩
        exact fun _ _ _ => by simpa using hdigit

theorem step_number_sound {s : Scanner} (p : Position) (c : Char) {digits : Digits}
    (hshape : s.shape = .number digits) (h : (Shape.number digits).Holds s.read.reverse) :
    Sound false (s.step p c) := by
  obtain ⟨sign, rest, hread, hsign, hspell⟩ := h
  unfold step
  simp only [hshape]
  split
  case h_1 digits' hextend =>
    exact push_sound (by simp)
      ⟨sign, rest ++ [c], by rw [hread, List.append_assoc], hsign, hspell.extend hextend⟩
  case h_2 =>
    split
    case isTrue => exact .inl ⟨_, rfl, rfl⟩
    case isFalse =>
      refine finishThen_sound p c (.number ?_) rfl
      rw [String.toList_ofList, hread]
      exact hspell.numberText hsign

theorem step_quoted_sound {s : Scanner} (p : Position) (c : Char) {delimiter : Char}
    {escaped : Bool} (hshape : s.shape = .quoted delimiter escaped)
    (h : (Shape.quoted delimiter escaped).Holds s.read.reverse) : Sound false (s.step p c) := by
  obtain ⟨hquote, body, hbody, hread⟩ := h
  unfold step
  simp only [hshape]
  cases escaped with
  | true =>
    refine push_sound (by simp) ⟨hquote, body ++ ['\\', c], hbody.append (.escaped .nil), ?_⟩
    simp [hread]
  | false =>
    rw [if_neg (by simp)]
    split
    case isTrue hslash => exact push_sound (by simp) ⟨hquote, body, hbody, by simp [hread, hslash]⟩
    case isFalse hslash =>
      split
      case isTrue hdelimiter =>
        refine .inr ⟨rfl, .string ?_, rfl⟩
        refine ⟨delimiter, body, hquote, hbody, ?_⟩
        simp [emit, text, push, hread, hdelimiter]
      case isFalse hdelimiter =>
        refine push_sound (by simp) ?_
        exact ⟨hquote, body ++ [c], hbody.append (.plain hslash hdelimiter .nil), by simp [hread]⟩

theorem step_word_sound {s : Scanner} (p : Position) (c : Char) (hshape : s.shape = .word)
    (h : Shape.word.Holds s.read.reverse) : Sound false (s.step p c) := by
  obtain ⟨hword, hsign⟩ := h
  unfold step
  simp only [hshape]
  split
  case isTrue hend => exact finishThen_sound p c (fits_word hword) (wordKind_opens s _)
  case isFalse hend =>
    refine push_sound (by simp) ⟨hword.concat (by simpa using hend) ?_, ?_⟩
    · intro sign hread htrue
      simp [hsign sign hread] at htrue
    · intro sign hread
      rcases List.append_eq_singleton_iff.1 hread with ⟨hempty, -⟩ | ⟨-, hempty⟩
      · exact absurd hempty hword.nonempty
      · cases hempty

/-- One character, read by a scanner that has read what its shape says. -/
theorem step_sound {s : Scanner} (p : Position) (c : Char) (h : s.Reads) :
    Sound s.afterOpening (s.step p c) := by
  unfold Reads at h
  unfold afterOpening
  cases hshape : s.shape with rw [hshape] at h
  | gap => rw [step, hshape]; exact .inr (begin_sound p c)
  | head => exact step_head_sound p c hshape h
  | sign => exact step_sign_sound p c hshape h
  | number digits => exact step_number_sound p c hshape h
  | quoted delimiter escaped => exact step_quoted_sound p c hshape h
  | word => exact step_word_sound p c hshape h
  | halted => exact h.elim

/-! ## Whole sources -/

theorem finish_shaped {s : Scanner} (p : Position) (h : s.Reads) :
    Shaped s.afterOpening ((s.finish p).map Token.lexeme) := by
  unfold Reads at h
  unfold afterOpening finish
  cases hshape : s.shape with rw [hshape] at h
  | gap => exact .eof
  | head =>
    simp only
    split
    case isTrue hdefine =>
      have hread : s.read.reverse = defineChars := of_decide_eq_true hdefine
      refine .cons ?_ .eof
      rw [lexeme_emit, hread]
      exact .define
    case isFalse => exact .error
  | sign =>
    obtain ⟨sign, hread, hsign⟩ := h
    have hword : BareWord s.read.reverse := by
      rw [hread]
      exact bareWord_of_sign hsign
    exact .cons (fits_word hword) (wordKind_opens s _ ▸ .eof)
  | number digits =>
    obtain ⟨sign, rest, hread, hsign, hspell⟩ := h
    refine .cons ?_ .eof
    rw [lexeme_emit, hread]
    exact .number (String.toList_ofList ▸ hspell.numberText hsign)
  | quoted delimiter escaped => exact .error
  | word => exact .cons (fits_word h.1) (wordKind_opens s _ ▸ .eof)
  | halted => exact h.elim

theorem scan_halted {s : Scanner} (p : Position) (cs : List Char) (h : s.shape = .halted) :
    s.scan p cs = [] := by
  induction cs generalizing p with
  | nil => simp [scan, finish, h]
  | cons c rest ih => simp [scan, step, h, ih]

/-- Reading on from a scanner that has read what its shape says. -/
theorem scan_shaped {s : Scanner} (p : Position) (cs : List Char) (h : s.Reads) :
    Shaped s.afterOpening ((s.scan p cs).map Token.lexeme) := by
  induction cs generalizing s p with
  | nil => exact finish_shaped p h
  | cons c rest ih =>
    simp only [scan, List.map_append]
    rcases step_sound p c h with ⟨message, htokens, hhalted⟩ | ⟨hreads, hfitting⟩
    · rw [htokens, scan_halted _ _ hhalted]
      exact .error
    · exact hfitting.append_shaped (ih _ hreads)

end Scanner

/-- Every source is read as the token language has it. -/
theorem tokenize_shaped (source : String) : Shaped false ((tokenize source).map Token.lexeme) :=
  Scanner.scan_shaped (s := .between .origin) .origin source.toList rfl

end HostLisp
