import HostLisp.Proofs.Digits
import HostLisp.Quoted

/-!
# What string literals stand for

The body of a string literal is made of pieces, each of which stands for one character.  The pieces
that literals are said to have are `Documented`: a character that stands for itself, a letter after
a backslash, the delimiter after a backslash, and the five spellings of a character by its number.
What such a number has to be is said about the character: it is the place value of the digits, so
numbers that no character has do not occur.

The reader takes one kind of piece more.  Between braces it lets a plus sign precede the digits
(`Accepted.signed`), and that is all it takes beyond the documented ones.  A body is read if it is
made of accepted pieces, and then as the characters they stand for.  Pieces stand one after the
other without anything between them, so the work is to see that each one ends where it should,
whatever comes next (`escape_of_accepted`).  Where a body cannot be read, the pieces before that
place can (`exists_spelled`).
-/

/-! ## Results under a function -/

namespace Except

variable {ε α β : Type} {f : α → β} {x : Except ε α}

theorem map_eq_ok_iff {b : β} : x.map f = .ok b ↔ ∃ a, x = .ok a ∧ f a = b := by
  cases x with
  | error e => simp [Except.map]
  | ok a => simp [Except.map]

theorem map_eq_error_iff {e : ε} : x.map f = .error e ↔ x = .error e := by
  cases x with
  | error e' => simp [Except.map]
  | ok a => simp [Except.map]

end Except

namespace HostLisp.Quoted

open Text

/-! ## Pieces -/

/-- The letters that stand for another character after a backslash, and the backslash. -/
def letters : List (Char × Char) :=
  [('a', '\x07'), ('b', '\x08'), ('f', '\x0c'), ('n', '\n'), ('r', '\r'), ('t', '\t'),
    ('v', '\x0b'), ('\\', '\\')]

/-- The pieces that a body between such delimiters may be made of, and the characters they stand
for. -/
inductive Documented (delimiter : Char) : List Char → Char → Prop where
  | plain {c : Char} : c ≠ '\\' → c ≠ delimiter → Documented delimiter [c] c
  | letter {l c : Char} : (l, c) ∈ letters → Documented delimiter ['\\', l] c
  | delimiter : Documented delimiter ['\\', delimiter] delimiter
  | octal {ds : List Char} {c : Char} :
    ds.length = 3 → PlaceValue 8 ds c.toNat → c.toNat ≤ 0x7f → Documented delimiter ('\\' :: ds) c
  | byte {ds : List Char} {c : Char} :
    ds.length = 2 → PlaceValue 16 ds c.toNat → c.toNat ≤ 0x7f →
      Documented delimiter ('\\' :: 'x' :: ds) c
  | short {ds : List Char} {c : Char} :
    ds.length = 4 → PlaceValue 16 ds c.toNat → Documented delimiter ('\\' :: 'u' :: ds) c
  | long {ds : List Char} {c : Char} :
    ds.length = 8 → PlaceValue 16 ds c.toNat → Documented delimiter ('\\' :: 'U' :: ds) c
  | braced {ds : List Char} {c : Char} :
    ds ≠ [] → PlaceValue 16 ds c.toNat →
      Documented delimiter ('\\' :: 'u' :: '\x7b' :: ds ++ ['\x7d']) c

/-- The pieces that are read. -/
inductive Accepted (delimiter : Char) : List Char → Char → Prop where
  | documented {cs : List Char} {c : Char} : Documented delimiter cs c → Accepted delimiter cs c
  /-- A plus sign may precede the digits between braces. -/
  | signed {ds : List Char} {c : Char} :
    ds ≠ [] → PlaceValue 16 ds c.toNat →
      Accepted delimiter ('\\' :: 'u' :: '\x7b' :: '+' :: ds ++ ['\x7d']) c

/-- A piece is a character that stands for itself, or begins with a backslash. -/
theorem Accepted.plain_or_escape {delimiter c : Char} {cs : List Char}
    (h : Accepted delimiter cs c) :
    cs = [c] ∧ c ≠ '\\' ∧ c ≠ delimiter ∨ ∃ spelling, cs = '\\' :: spelling := by
  cases h with
  | signed => exact .inr ⟨_, rfl⟩
  | documented h =>
    cases h with
    | plain hslash hdelimiter => exact .inl ⟨rfl, hslash, hdelimiter⟩
    | letter | delimiter | octal | byte | short | long | braced => exact .inr ⟨_, rfl⟩

/-- Pieces one after the other, and the characters they stand for. -/
inductive Spelled (Piece : List Char → Char → Prop) : List Char → List Char → Prop where
  | nil : Spelled Piece [] []
  | cons {cs rest text : List Char} {c : Char} :
    Piece cs c → Spelled Piece rest text → Spelled Piece (cs ++ rest) (c :: text)

theorem Spelled.imp {P Q : List Char → Char → Prop} (hPQ : ∀ {cs c}, P cs c → Q cs c)
    {cs text : List Char} (h : Spelled P cs text) : Spelled Q cs text := by
  induction h with
  | nil => exact .nil
  | cons hpiece _ ih => exact .cons (hPQ hpiece) ih

/-! ## Numbers in escapes -/

/-- A number has a character if it is the number of one. -/
theorem scalar?_eq_some_iff {n : Nat} {c : Char} : scalar? n = some c ↔ n = c.toNat := by
  unfold scalar?
  constructor
  · intro h
    split at h
    case isTrue hvalid =>
      cases h
      have hchar : Char.ofNat n = Char.ofNatAux n hvalid := dif_pos hvalid
      rw [hchar]
      rfl
    case isFalse => cases h
  · rintro rfl
    have hvalid : c.toNat < 0xD800 ∨ (0xDFFF < c.toNat ∧ c.toNat < 0x110000) := c.valid
    rw [if_pos hvalid, Char.ofNat_toNat]

theorem scalar_eq_ok_iff {n? : Option Nat} {c : Char} :
    scalar n? = .ok c ↔ n? = some c.toNat := by
  have hbind : n?.bind scalar? = some c ↔ n? = some c.toNat := by
    rw [Option.bind_eq_some_iff]
    constructor
    · rintro ⟨n, hn, hc⟩
      rw [hn, scalar?_eq_some_iff.1 hc]
    · intro h
      exact ⟨c.toNat, h, scalar?_eq_some_iff.2 rfl⟩
  rw [← hbind]
  unfold scalar
  cases n?.bind scalar? <;> simp

theorem ascii_eq_ok_iff {e : ByteEscape} {n : Nat} {c : Char} :
    ascii e n = .ok c ↔ n = c.toNat ∧ c.toNat ≤ 0x7f := by
  unfold ascii
  constructor
  · intro h
    split at h
    case isTrue hn =>
      cases h
      have hvalue : n = (Char.ofNat n).toNat := scalar?_eq_some_iff.1 (if_pos (.inl (by omega)))
      omega
    case isFalse => cases h
  · rintro ⟨rfl, hc⟩
    rw [if_pos (by omega), Char.ofNat_toNat]

/-- A fixed count of digits is read from the front of what comes next. -/
theorem leading?_eq_some_iff {count radix n : Nat} (hcount : count ≠ 0) {rest : List Char} :
    leading? count radix rest = some n ↔
      ∃ ds tail, rest = ds ++ tail ∧ ds.length = count ∧ PlaceValue radix ds n := by
  unfold leading?
  constructor
  · intro h
    split at h
    case isTrue hle =>
      refine ⟨rest.take count, rest.drop count, (List.take_append_drop count rest).symm, ?_, ?_⟩
      · rw [List.length_take, Nat.min_eq_left hle]
      · exact (readDigits?_eq_some_iff.1 h).2
    case isFalse => cases h
  · rintro ⟨ds, tail, rfl, rfl, hplace⟩
    have hne : ds ≠ [] := fun hnil => hcount (by rw [hnil]; rfl)
    rw [if_pos (by simp), List.take_left, readDigits?_eq_some_iff]
    exact ⟨hne, hplace⟩

theorem braced?_eq_some_iff {ds : List Char} {n : Nat} :
    braced? ds = some n ↔
      ∃ digits, (ds = digits ∨ ds = '+' :: digits) ∧ digits ≠ [] ∧ PlaceValue 16 digits n := by
  unfold braced?
  split
  case h_1 digits =>
    rw [readDigits?_eq_some_iff]
    constructor
    · exact fun h => ⟨digits, .inr rfl, h⟩
    · rintro ⟨digits', rfl | heq, h⟩
      · -- A plus sign is no digit.
        obtain ⟨value, hplus⟩ := h.2.isDigit '+' (by simp)
        exact absurd rfl (hplus.ne (d := '+') (by decide))
      · cases heq
        exact h
  case h_2 hplus =>
    rw [readDigits?_eq_some_iff]
    constructor
    · exact fun h => ⟨ds, .inl rfl, h⟩
    · rintro ⟨digits, rfl | rfl, h⟩
      · exact h
      · exact absurd rfl (hplus digits)

/-- What is between the braces ends at the first closing one, which is behind all digits. -/
theorem bracedEscape_eq_ok_iff {rest : List Char} {c : Char} {used : Nat} :
    bracedEscape rest = .ok (c, used) ↔
      ∃ ds tail, rest = ds ++ '\x7d' :: tail ∧ used = ds.length + 1 ∧
        braced? ds = some c.toNat := by
  unfold bracedEscape
  simp only
  constructor
  · intro h
    split at h
    case isTrue hlt =>
      cases hscalar : scalar (braced? (rest.takeWhile (· ≠ '\x7d'))) with
      | error e => rw [hscalar] at h; cases h
      | ok d =>
        rw [hscalar] at h
        cases h
        have hsplit := List.takeWhile_append_dropWhile (p := (· ≠ '\x7d')) (l := rest)
        have hdrop : rest.dropWhile (· ≠ '\x7d') ≠ [] := by
          intro hnil
          rw [hnil, List.append_nil] at hsplit
          rw [hsplit] at hlt
          exact Nat.lt_irrefl _ hlt
        obtain ⟨first, tail, htail⟩ := List.exists_cons_of_ne_nil hdrop
        have hfirst : first = '\x7d' := by
          have hhead := List.head?_dropWhile_not (· ≠ '\x7d') rest
          rw [htail] at hhead
          simpa using hhead
        rw [htail, hfirst] at hsplit
        exact ⟨_, tail, hsplit.symm, rfl, scalar_eq_ok_iff.1 hscalar⟩
    case isFalse => cases h
  · rintro ⟨ds, tail, rfl, rfl, hds⟩
    have hdigits : ∀ d ∈ ds, d ≠ '\x7d' := by
      obtain ⟨digits, hsign, -, hplace⟩ := braced?_eq_some_iff.1 hds
      intro d hd
      rcases hsign with rfl | rfl
      · obtain ⟨value, hvalue⟩ := hplace.isDigit d hd
        exact hvalue.ne (by decide)
      · rcases List.mem_cons.1 hd with rfl | hd
        · decide
        · obtain ⟨value, hvalue⟩ := hplace.isDigit d hd
          exact hvalue.ne (by decide)
    have htake : (ds ++ '\x7d' :: tail).takeWhile (· ≠ '\x7d') = ds := by
      rw [List.takeWhile_append_of_pos (by simpa using hdigits)]
      simp
    rw [htake, if_pos (by simp), scalar_eq_ok_iff.2 hds]
    rfl

/-! ## Escapes -/

/-- An octal digit begins no other escape. -/
theorem not_mem_letters_of_octal {first : Char} {value : Nat} (h : IsDigit 8 first value) :
    first ∉ letters.map (·.1) ∧ isQuote first = false ∧ first ≠ 'x' ∧ first ≠ 'u' ∧
      first ≠ 'U' := by
  have hmem : first ∈ ['0', '1', '2', '3', '4', '5', '6', '7'] := h.mem_take (by decide)
  simp only [List.mem_cons, List.not_mem_nil, or_false] at hmem
  rcases hmem with rfl | rfl | rfl | rfl | rfl | rfl | rfl | rfl <;> decide

section

variable {delimiter : Char} (hquote : isQuote delimiter = true)

include hquote

theorem letter?_eq_some_iff {l c : Char} :
    letter? delimiter l = some c ↔ (l, c) ∈ letters ∨ l = delimiter ∧ c = delimiter := by
  have hdelimiter : delimiter = '"' ∨ delimiter = '\'' := by simpa [isQuote] using hquote
  constructor
  · intro h
    unfold letter? at h
    split at h
    case h_9 =>
      split at h
      case isTrue hl =>
        cases h
        exact .inr ⟨hl, hl⟩
      case isFalse => cases h
    all_goals
      cases h
      exact .inl (by decide)
  · rintro (h | ⟨rfl, rfl⟩)
    · simp only [letters, List.mem_cons, Prod.mk.injEq, List.not_mem_nil, or_false] at h
      rcases h with ⟨rfl, rfl⟩ | ⟨rfl, rfl⟩ | ⟨rfl, rfl⟩ | ⟨rfl, rfl⟩ | ⟨rfl, rfl⟩ | ⟨rfl, rfl⟩ |
        ⟨rfl, rfl⟩ | ⟨rfl, rfl⟩ <;> rfl
    · rcases hdelimiter with rfl | rfl <;> rfl

/-- What is read as an escape is an accepted piece without its backslash, and as long. -/
theorem accepted_of_escape {rest : List Char} {c : Char} {used : Nat}
    (h : escape delimiter rest = .ok (c, used)) :
    ∃ spelling tail, rest = spelling ++ tail ∧ spelling.length = used ∧
      Accepted delimiter ('\\' :: spelling) c := by
  unfold escape at h
  split at h
  case h_1 => cases h
  case h_2 l rest =>
    split at h
    case h_1 plain hletter =>
      cases h
      refine ⟨[l], rest, rfl, rfl, .documented ?_⟩
      rcases (letter?_eq_some_iff hquote).1 hletter with hmem | ⟨rfl, rfl⟩
      · exact .letter hmem
      · exact .delimiter
    case h_2 =>
      split at h
      case h_1 =>
        split at h
        case h_1 n hn =>
          obtain ⟨ds, tail, rfl, hlength, hplace⟩ := (leading?_eq_some_iff (by decide)).1 hn
          obtain ⟨d, hd, heq⟩ := Except.map_eq_ok_iff.1 h
          cases heq
          obtain ⟨rfl, hascii⟩ := ascii_eq_ok_iff.1 hd
          exact ⟨'x' :: ds, tail, rfl, by simp [hlength], .documented (.byte hlength hplace hascii)⟩
        case h_2 => cases h
      case h_2 =>
        obtain ⟨⟨d, count⟩, hd, heq⟩ := Except.map_eq_ok_iff.1 h
        cases heq
        obtain ⟨ds, tail, rfl, rfl, hds⟩ := bracedEscape_eq_ok_iff.1 hd
        obtain ⟨digits, hsign, hne, hplace⟩ := braced?_eq_some_iff.1 hds
        refine ⟨'u' :: '\x7b' :: ds ++ ['\x7d'], tail, by simp, by simp, ?_⟩
        rcases hsign with rfl | rfl
        · exact .documented (.braced hne hplace)
        · exact .signed hne hplace
      case h_3 =>
        obtain ⟨d, hd, heq⟩ := Except.map_eq_ok_iff.1 h
        cases heq
        obtain ⟨ds, tail, rfl, hlength, hplace⟩ :=
          (leading?_eq_some_iff (by decide)).1 (scalar_eq_ok_iff.1 hd)
        exact ⟨'u' :: ds, tail, rfl, by simp [hlength], .documented (.short hlength hplace)⟩
      case h_4 =>
        obtain ⟨d, hd, heq⟩ := Except.map_eq_ok_iff.1 h
        cases heq
        obtain ⟨ds, tail, rfl, hlength, hplace⟩ :=
          (leading?_eq_some_iff (by decide)).1 (scalar_eq_ok_iff.1 hd)
        exact ⟨'U' :: ds, tail, rfl, by simp [hlength], .documented (.long hlength hplace)⟩
      case h_5 =>
        split at h
        case h_1 => cases h
        case h_2 first hfirst =>
          split at h
          case h_1 n hn =>
            obtain ⟨ds, tail, rfl, hlength, hplace⟩ := (leading?_eq_some_iff (by decide)).1 hn
            obtain ⟨d, hd, heq⟩ := Except.map_eq_ok_iff.1 h
            cases heq
            obtain ⟨hvalue, hascii⟩ := ascii_eq_ok_iff.1 hd
            have hoctal : PlaceValue 8 (l :: ds) c.toNat := by
              refine placeValue_cons_iff.2
                ⟨first, n, digitValue?_eq_some_iff.1 hfirst, hplace, ?_⟩
              rw [hlength, ← hvalue]
              rfl
            exact ⟨l :: ds, tail, rfl, by simp [hlength],
              .documented (.octal (by simp [hlength]) hoctal hascii)⟩
          case h_2 => cases h

/-- A character that is no letter is looked at for a number. -/
theorem letter?_eq_none {l : Char} (hl : l ∉ letters.map (·.1)) (hne : isQuote l = false) :
    letter? delimiter l = none := by
  cases h : letter? delimiter l with
  | none => rfl
  | some c =>
    rcases (letter?_eq_some_iff hquote).1 h with hmem | ⟨rfl, -⟩
    · exact absurd (List.mem_map_of_mem hmem) hl
    · simp [hquote] at hne

theorem escape_octal {first : Char} {value n : Nat} (hfirst : IsDigit 8 first value)
    {rest : List Char} (hrest : leading? 2 8 rest = some n) :
    escape delimiter (first :: rest) = (ascii .octal (value * 64 + n)).map (·, 3) := by
  obtain ⟨hletter, hne, hx, hu, hU⟩ := not_mem_letters_of_octal hfirst
  have hread := digitValue?_eq_some_iff.2 hfirst
  unfold escape
  simp only [letter?_eq_none hquote hletter hne]
  split
  case h_5 => simp only [hread, hrest]
  all_goals contradiction

theorem escape_short {first : Char} (hfirst : first ≠ '\x7b') (rest : List Char) :
    escape delimiter ('u' :: first :: rest)
      = (scalar (leading? 4 16 (first :: rest))).map (·, 5) := by
  unfold escape
  simp only [letter?_eq_none hquote (show 'u' ∉ letters.map (·.1) by decide) rfl]
  split
  case h_2 heq => exact absurd (List.cons.inj heq).1 hfirst
  all_goals simp_all

/-- An accepted piece is read as an escape, whatever comes next. -/
theorem escape_of_accepted {spelling : List Char} {c : Char}
    (h : Accepted delimiter ('\\' :: spelling) c) (tail : List Char) :
    escape delimiter (spelling ++ tail) = .ok (c, spelling.length) := by
  have hnone : ∀ {l : Char}, l ∉ letters.map (·.1) → isQuote l = false →
      letter? delimiter l = none := letter?_eq_none hquote
  have hleading : ∀ {ds : List Char} {count radix n : Nat}, count ≠ 0 → ds.length = count →
      PlaceValue radix ds n → leading? count radix (ds ++ tail) = some n := by
    intro ds count radix n hcount hlength hplace
    exact (leading?_eq_some_iff hcount).2 ⟨ds, tail, rfl, hlength, hplace⟩
  have hbraced : ∀ {ds : List Char}, braced? ds = some c.toNat →
      escape delimiter ('u' :: '\x7b' :: ds ++ ['\x7d'] ++ tail)
        = .ok (c, ('u' :: '\x7b' :: ds ++ ['\x7d']).length) := by
    intro ds hds
    have hread : bracedEscape (ds ++ '\x7d' :: tail) = .ok (c, ds.length + 1) :=
      bracedEscape_eq_ok_iff.2 ⟨ds, tail, rfl, rfl, hds⟩
    simp [escape, hnone (show 'u' ∉ letters.map (·.1) by decide) rfl, hread, Except.map]
  cases h with
  | signed hne hplace => exact hbraced (braced?_eq_some_iff.2 ⟨_, .inr rfl, hne, hplace⟩)
  | documented h =>
    cases h with
    | plain hslash => exact absurd rfl hslash
    | @letter l _ hmem =>
      have hletter : letter? delimiter l = some c := (letter?_eq_some_iff hquote).2 (.inl hmem)
      simp [escape, hletter]
    | delimiter =>
      have hletter := (letter?_eq_some_iff hquote (l := delimiter)).2 (.inr ⟨rfl, rfl⟩)
      simp [escape, hletter]
    | octal hlength hplace hascii =>
      match spelling, hlength with
      | first :: ds, hlength =>
        have hlength : ds.length = 2 := by simpa using hlength
        obtain ⟨value, n, hfirst, hds, hvalue⟩ := placeValue_cons_iff.1 hplace
        have hvalue : value * 64 + n = c.toNat := by
          rw [hvalue, hlength]
          rfl
        rw [List.cons_append, escape_octal hquote hfirst (hleading (by decide) hlength hds),
          ascii_eq_ok_iff.2 ⟨hvalue, hascii⟩]
        simp [Except.map, hlength]
    | byte hlength hplace hascii =>
      have hread := hleading (by decide) hlength hplace
      have hbyte : ascii .hexadecimal c.toNat = .ok c := ascii_eq_ok_iff.2 ⟨rfl, hascii⟩
      simp [escape, hnone (show 'x' ∉ letters.map (·.1) by decide) rfl, hread, hbyte, Except.map,
        hlength]
    | @short ds _ hlength hplace =>
      have hread := scalar_eq_ok_iff.2 (hleading (by decide) hlength hplace)
      match ds, hlength with
      | first :: ds, hlength =>
        obtain ⟨value, hfirst⟩ := hplace.isDigit first (by simp)
        rw [List.cons_append, List.cons_append, escape_short hquote (hfirst.ne (by decide)),
          ← List.cons_append, hread, Except.map, List.length_cons, hlength]
    | long hlength hplace =>
      have hread := scalar_eq_ok_iff.2 (hleading (by decide) hlength hplace)
      simp [escape, hnone (show 'U' ∉ letters.map (·.1) by decide) rfl, hread, Except.map, hlength]
    | braced hne hplace => exact hbraced (braced?_eq_some_iff.2 ⟨_, .inl rfl, hne, hplace⟩)

end

/-! ## Bodies -/

theorem body_skip (delimiter : Char) (skip : Nat) (rest : List Char) :
    body delimiter skip rest = body delimiter 0 (rest.drop skip) := by
  induction skip generalizing rest with
  | zero => rfl
  | succ skip ih =>
    cases rest with
    | nil => rfl
    | cons c rest => exact ih rest

theorem body_escape {delimiter plain : Char} {used : Nat} {rest : List Char}
    (h : escape delimiter rest = .ok (plain, used)) :
    body delimiter 0 ('\\' :: rest) = (body delimiter 0 (rest.drop used)).map (plain :: ·) := by
  rw [body, if_pos rfl, h, ← body_skip]
  rfl

theorem body_plain {delimiter c : Char} (hslash : c ≠ '\\') (hdelimiter : c ≠ delimiter)
    (rest : List Char) : body delimiter 0 (c :: rest) = (body delimiter 0 rest).map (c :: ·) := by
  rw [body, if_neg hslash, if_neg hdelimiter]
  rfl

/-- A place in a body where reading ends in an error. -/
inductive Refuses (delimiter : Char) : QuoteError → List Char → Prop where
  | malformed {e : QuoteError} {rest : List Char} :
    escape delimiter rest = .error e → Refuses delimiter e ('\\' :: rest)
  | bare {rest : List Char} : Refuses delimiter (.bareDelimiter delimiter) (delimiter :: rest)

section

variable {delimiter : Char} (hquote : isQuote delimiter = true)

include hquote

theorem delimiter_ne_backslash : delimiter ≠ '\\' := by
  rintro rfl
  exact absurd hquote (by decide)

theorem body_of_refuses {e : QuoteError} {rest : List Char} (h : Refuses delimiter e rest) :
    body delimiter 0 rest = .error e := by
  cases h with
  | malformed hescape =>
    rw [body, if_pos rfl, hescape]
    rfl
  | bare => rw [body, if_neg (delimiter_ne_backslash hquote), if_pos rfl]

theorem body_of_accepted {cs : List Char} {c : Char} (h : Accepted delimiter cs c)
    (rest : List Char) : body delimiter 0 (cs ++ rest) = (body delimiter 0 rest).map (c :: ·) := by
  rcases h.plain_or_escape with ⟨rfl, hslash, hdelimiter⟩ | ⟨spelling, rfl⟩
  · exact body_plain hslash hdelimiter rest
  · rw [List.cons_append, body_escape (escape_of_accepted hquote h rest), List.drop_left]

/-- Accepted pieces are read, whatever comes next. -/
theorem body_of_spelled {cs text : List Char} (h : Spelled (Accepted delimiter) cs text)
    (rest : List Char) :
    body delimiter 0 (cs ++ rest) = (body delimiter 0 rest).map (text ++ ·) := by
  induction h with
  | nil => cases hbody : body delimiter 0 rest <;> simp [hbody, Except.map]
  | cons hpiece _ ih =>
    rw [List.append_assoc, body_of_accepted hquote hpiece, ih]
    cases body delimiter 0 rest <;> simp [Except.map]

/-- Every body is made of accepted pieces up to its end, or up to a place that is refused. -/
theorem exists_spelled (cs : List Char) :
    ∃ before rest text, cs = before ++ rest ∧ Spelled (Accepted delimiter) before text ∧
      (rest = [] ∨ ∃ e, Refuses delimiter e rest) := by
  -- The induction is on the length, as an escape takes several characters at once.
  induction hlength : cs.length using Nat.strongRecOn generalizing cs with
  | ind n ih =>
    have hpiece : ∀ {piece tail : List Char} {c : Char}, Accepted delimiter piece c →
        cs = piece ++ tail → tail.length < cs.length →
        ∃ before rest text, cs = before ++ rest ∧ Spelled (Accepted delimiter) before text ∧
          (rest = [] ∨ ∃ e, Refuses delimiter e rest) := by
      intro piece tail c hpiece hcs hlt
      obtain ⟨before, rest, text, rfl, hbefore, hrest⟩ := ih _ (hlength ▸ hlt) tail rfl
      exact ⟨piece ++ before, rest, c :: text, by rw [hcs, List.append_assoc],
        .cons hpiece hbefore, hrest⟩
    cases cs with
    | nil => exact ⟨[], [], [], rfl, .nil, .inl rfl⟩
    | cons c rest =>
      by_cases hslash : c = '\\'
      · subst hslash
        cases hescape : escape delimiter rest with
        | error e => exact ⟨[], _, [], rfl, .nil, .inr ⟨e, .malformed hescape⟩⟩
        | ok result =>
          obtain ⟨spelling, tail, rfl, -, haccepted⟩ := accepted_of_escape hquote hescape
          have hshorter : tail.length < ('\\' :: (spelling ++ tail)).length := by
            rw [List.length_cons, List.length_append]
            omega
          exact hpiece haccepted rfl hshorter
      · by_cases hdelimiter : c = delimiter
        · subst hdelimiter
          exact ⟨[], _, [], rfl, .nil, .inr ⟨_, .bare⟩⟩
        · exact hpiece (.documented (.plain hslash hdelimiter)) rfl (by simp)

theorem body_eq_ok_iff {cs text : List Char} :
    body delimiter 0 cs = .ok text ↔ Spelled (Accepted delimiter) cs text := by
  constructor
  · intro h
    obtain ⟨before, rest, text', rfl, hbefore, rfl | ⟨e, hrefuses⟩⟩ := exists_spelled hquote cs
    · rw [body_of_spelled hquote hbefore] at h
      have heq : text' = text := by simpa [body, Except.map] using h
      rwa [List.append_nil, ← heq]
    · rw [body_of_spelled hquote hbefore, body_of_refuses hquote hrefuses] at h
      cases h
  · intro h
    have hbody := body_of_spelled hquote h []
    simpa [body, Except.map] using hbody

theorem body_eq_error {cs : List Char} {e : QuoteError} (h : body delimiter 0 cs = .error e) :
    ∃ before rest text, cs = before ++ rest ∧ Spelled (Accepted delimiter) before text ∧
      Refuses delimiter e rest := by
  obtain ⟨before, rest, text, rfl, hbefore, rfl | ⟨e', hrefuses⟩⟩ := exists_spelled hquote cs
  · rw [body_of_spelled hquote hbefore] at h
    cases h
  · rw [body_of_spelled hquote hbefore, body_of_refuses hquote hrefuses] at h
    cases h
    exact ⟨before, rest, text, rfl, hbefore, hrefuses⟩

/-! ## Literals -/

/-- Between its delimiters a literal is read as a body. -/
theorem decodeChars_quoted (cs : List Char) :
    decodeChars (delimiter :: cs ++ [delimiter]) = body delimiter 0 cs := by
  have hlast : (cs ++ [delimiter]).getLast? = some delimiter := by simp
  obtain ⟨c, rest, hinner⟩ := List.exists_cons_of_ne_nil (l := cs ++ [delimiter]) (by simp)
  rw [List.cons_append, hinner]
  simp only [decodeChars]
  rw [← hinner, if_pos ⟨hlast, hquote⟩, List.dropLast_concat]

end

theorem exists_quoted_of_decodeChars {literal text : List Char}
    (h : decodeChars literal = .ok text) :
    ∃ delimiter cs, isQuote delimiter = true ∧ literal = delimiter :: cs ++ [delimiter] := by
  unfold decodeChars at h
  split at h
  case h_1 opening first rest =>
    split at h
    case isTrue hends =>
      refine ⟨opening, (first :: rest).dropLast, hends.2, ?_⟩
      have hconcat := List.dropLast_append_getLast? opening hends.1
      rw [List.cons_append, hconcat]
    case isFalse => cases h
  case h_2 => cases h

/-- A literal is read if it is accepted pieces between two delimiters that are the same quote, and
then as what the pieces stand for. -/
theorem decodeChars_eq_ok_iff {literal text : List Char} :
    decodeChars literal = .ok text ↔
      ∃ delimiter cs, isQuote delimiter = true ∧ literal = delimiter :: cs ++ [delimiter] ∧
        Spelled (Accepted delimiter) cs text := by
  constructor
  · intro h
    obtain ⟨delimiter, cs, hquote, rfl⟩ := exists_quoted_of_decodeChars h
    rw [decodeChars_quoted hquote] at h
    exact ⟨delimiter, cs, hquote, rfl, (body_eq_ok_iff hquote).1 h⟩
  · rintro ⟨delimiter, cs, hquote, rfl, hspelled⟩
    rw [decodeChars_quoted hquote]
    exact (body_eq_ok_iff hquote).2 hspelled

/-! ## Writing a text and reading it back -/

/-- The characters of a text between the delimiters. -/
def escapedChars (delimiter : Char) (text : List Char) : List Char :=
  text.flatMap fun c => if c = '\\' ∨ c = delimiter then ['\\', c] else [c]

theorem encodeChars_eq (delimiter : Char) (text : List Char) :
    encodeChars delimiter text = delimiter :: escapedChars delimiter text ++ [delimiter] := rfl

/-- A text is written with documented pieces that stand for its characters. -/
theorem spelled_escapedChars (delimiter : Char) (text : List Char) :
    Spelled (Documented delimiter) (escapedChars delimiter text) text := by
  induction text with
  | nil => exact .nil
  | cons c rest ih =>
    unfold escapedChars
    rw [List.flatMap_cons]
    split
    case isTrue hc =>
      rcases hc with rfl | rfl
      · exact .cons (.letter (by decide)) ih
      · exact .cons .delimiter ih
    case isFalse hplain =>
      have hslash : c ≠ '\\' := fun h => hplain (.inl h)
      have hdelimiter : c ≠ delimiter := fun h => hplain (.inr h)
      exact .cons (.plain hslash hdelimiter) ih

theorem decodeChars_of_spelled {delimiter : Char} (hquote : isQuote delimiter = true)
    {cs text : List Char} (h : Spelled (Documented delimiter) cs text) :
    decodeChars (delimiter :: cs ++ [delimiter]) = .ok text :=
  decodeChars_eq_ok_iff.2 ⟨delimiter, cs, hquote, rfl, h.imp .documented⟩

theorem decodeChars_encodeChars {delimiter : Char} (hquote : isQuote delimiter = true)
    (text : List Char) : decodeChars (encodeChars delimiter text) = .ok text := by
  rw [encodeChars_eq]
  exact decodeChars_of_spelled hquote (spelled_escapedChars delimiter text)

/-- What is written is read back. -/
theorem decode_encode (text : String) : decode (encode text) = .ok text := by
  unfold decode encode
  rw [String.toList_ofList, decodeChars_encodeChars rfl]
  simp [Except.map]

/-! ## Which literals are read -/

/-- Documented pieces between two delimiters are read as the characters they stand for.  This
includes every text that is written with only backslashes and the delimiter escaped. -/
theorem documented_pieces_are_read {delimiter : Char} (hquote : isQuote delimiter = true) :
    (∀ cs text : List Char, Spelled (Documented delimiter) cs text →
      decode (String.ofList (delimiter :: cs ++ [delimiter])) = .ok (String.ofList text)) ∧
    (∀ text : String, decode (String.ofList (encodeChars delimiter text.toList)) = .ok text) := by
  refine ⟨fun cs text h => ?_, fun text => ?_⟩
  · rw [decode, String.toList_ofList, decodeChars_of_spelled hquote h, Except.map]
  · rw [decode, String.toList_ofList, decodeChars_encodeChars hquote, Except.map,
      String.ofList_toList]

/-- A body with a piece of every kind.  The pieces with a number stand before a character that could
be one more digit, or another brace. -/
def mixture : List Char :=
  ['\\', '1', '0', '1', '1', '\\', 'x', '4', 'a', 'f', '\\', 'u', '0', '0', 'E', '9', 'é',
    '\\', 'U', '0', '0', '0', '0', '2', '2', '0', '0', '0', '\\', 'u', '\x7b', '0', '2', '2', '0',
    '0', '\x7d', '\x7d', '\\', '\'', '\\', 'n']

theorem spelled_mixture :
    Spelled (Documented '\'') mixture
      ['A', '1', 'J', 'f', 'é', 'é', '∀', '0', '∀', '\x7d', '\'', '\n'] := by
  have hplain : ∀ {c : Char}, c ≠ '\\' ∧ c ≠ '\'' → Documented '\'' [c] c :=
    fun hc => .plain hc.1 hc.2
  have hoctal : Documented '\'' ['\\', '1', '0', '1'] 'A' := .octal rfl (by decide) (by decide)
  have hbyte : Documented '\'' ['\\', 'x', '4', 'a'] 'J' := .byte rfl (by decide) (by decide)
  have hshort : Documented '\'' ['\\', 'u', '0', '0', 'E', '9'] 'é' := .short rfl (by decide)
  have hlong : Documented '\'' ['\\', 'U', '0', '0', '0', '0', '2', '2', '0', '0'] '∀' :=
    .long rfl (by decide)
  have hbraced :
      Documented '\'' (['\\', 'u', '\x7b'] ++ ['0', '2', '2', '0', '0'] ++ ['\x7d']) '∀' :=
    .braced (by decide) (by decide)
  have hletter : Documented '\'' ['\\', 'n'] '\n' := .letter (by decide)
  exact .cons hoctal <| .cons (hplain (by decide)) <| .cons hbyte <| .cons (hplain (by decide)) <|
    .cons hshort <| .cons (hplain (by decide)) <| .cons hlong <| .cons (hplain (by decide)) <|
    .cons hbraced <| .cons (hplain (by decide)) <| .cons .delimiter <| .cons hletter .nil

theorem mixture_is_read :
    isQuote '\'' = true ∧ Spelled (Documented '\'') mixture
        ['A', '1', 'J', 'f', 'é', 'é', '∀', '0', '∀', '\x7d', '\'', '\n'] ∧
      decode (String.ofList ('\'' :: mixture ++ ['\'']))
        = .ok (String.ofList ['A', '1', 'J', 'f', 'é', 'é', '∀', '0', '∀', '\x7d', '\'', '\n']) ∧
      decode (String.ofList (encodeChars '\'' "it's".toList)) = .ok "it's" := by
  obtain ⟨hspelled, hencoded⟩ := @documented_pieces_are_read '\'' rfl
  exact ⟨rfl, spelled_mixture, hspelled _ _ spelled_mixture, hencoded "it's"⟩

/-- **What a literal is.** A text is read as a string if it is accepted pieces between two equal
quotes, and as the characters that these pieces stand for. -/
theorem literals_are_accepted_pieces (literal text : String) :
    decode literal = .ok text ↔
      ∃ delimiter cs, isQuote delimiter = true ∧ literal.toList = delimiter :: cs ++ [delimiter] ∧
        Spelled (Accepted delimiter) cs text.toList := by
  rw [← decodeChars_eq_ok_iff, decode, Except.map_eq_ok_iff]
  constructor
  · rintro ⟨chars, hchars, rfl⟩
    rwa [String.toList_ofList]
  · intro h
    exact ⟨text.toList, h, String.ofList_toList⟩

theorem Documented.ne_signed {delimiter c : Char} {cs : List Char} (h : Documented delimiter cs c)
    (rest : List Char) : cs ≠ '\\' :: 'u' :: '\x7b' :: '+' :: rest := by
  -- Whatever the piece would be, the sign would be one of its digits.
  have hsign : ∀ {radix n : Nat} {ds : List Char}, PlaceValue radix ds n → '+' ∉ ds := by
    intro radix n ds hplace hmem
    obtain ⟨value, hvalue⟩ := hplace.isDigit '+' hmem
    exact hvalue.ne (d := '+') (by decide) rfl
  intro heq
  cases h with
  | plain hslash => exact hslash (List.cons.inj heq).1
  | letter | delimiter | byte => simp at heq
  | octal _ hplace _ => exact hsign hplace (by simp [(List.cons.inj heq).2])
  | short _ hplace =>
    simp only [List.cons.injEq, true_and] at heq
    exact hsign hplace (by simp [heq])
  | long => simp at heq
  | @braced ds _ hne hplace =>
    cases ds with
    | nil => exact hne rfl
    | cons d ds =>
      simp only [List.cons_append, List.cons.injEq, true_and] at heq
      exact hsign hplace (by simp [heq.1])

/-- Not all of them are documented pieces: a plus sign between the braces is passed over. -/
theorem signed_braces_are_read :
    decode "\"\\u\x7b+41\x7d\"" = .ok "A" ∧
      ¬ ∃ delimiter cs, isQuote delimiter = true ∧
        "\"\\u\x7b+41\x7d\"".toList = delimiter :: cs ++ [delimiter] ∧
        Spelled (Documented delimiter) cs "A".toList := by
  refine ⟨rfl, ?_⟩
  rintro ⟨delimiter, cs, -, hliteral, hspelled⟩
  have hbody : cs = ['\\', 'u', '\x7b', '+', '4', '1', '\x7d'] := by
    have hinner := congrArg (fun l => l.tail.dropLast) hliteral
    simpa using hinner.symm
  subst hbody
  generalize hcs : ['\\', 'u', '\x7b', '+', '4', '1', '\x7d'] = cs at hspelled
  cases hspelled with
  | @cons piece rest _ _ hpiece hrest =>
    cases hrest
    rw [List.append_nil] at hcs
    exact hpiece.ne_signed _ hcs.symm

end HostLisp.Quoted
