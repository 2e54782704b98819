import HostLisp.Proofs.TokenLanguage

/-!
# Spelling tokens out

The other direction of the token language: lexemes that fit at their places, written down with
blanks between them, are read back as they are.  A blank is all it takes to end a token, whatever
comes after it.

`Spelling` relates lexemes to the texts they can be written as.  The main result is `scan_spelling`,
which is an induction on such a text; the work is in a single lexeme (`Scanner.scan_fits`), where
each kind of token is followed through the shapes that the scanner takes while it reads it.
-/

namespace HostLisp

open Text

/-- A blank comes next, or nothing does. -/
def Ended (cs : List Char) : Prop := ∀ c, cs.head? = some c → isBlank c = true

/-- A blank or a closing parenthesis comes next, or nothing does. -/
def Stopped (cs : List Char) : Prop := ∀ c, cs.head? = some c → endsWord c = true

/-- The texts that lexemes can be written as.  A source does not end in the first word of a form,
unless it is a definition. -/
inductive Spelling : List Lexeme → List Char → Prop where
  | nil : Spelling [] []
  | blank {c : Char} {ls : List Lexeme} {cs : List Char} :
    isBlank c = true → Spelling ls cs → Spelling ls (c :: cs)
  | lexeme {l : Lexeme} {ls : List Lexeme} {cs : List Char} :
    Ended cs → (cs = [] → l.kind ≠ .call) → Spelling ls cs →
      Spelling (l :: ls) (l.text.toList ++ cs)

/-- The place after some characters. -/
def Position.after (p : Position) (cs : List Char) : Position := cs.foldl Position.advance p

@[simp] theorem Position.after_nil (p : Position) : p.after [] = p := rfl

@[simp] theorem Position.after_cons (p : Position) (c : Char) (cs : List Char) :
    p.after (c :: cs) = (p.advance c).after cs := rfl

@[simp] theorem Position.after_append (p : Position) (xs ys : List Char) :
    p.after (xs ++ ys) = (p.after xs).after ys := by
  simp [Position.after]

theorem Position.line_after_eq (p : Position) (cs : List Char) :
    (p.after cs).line = p.line + cs.count '\n' := by
  induction cs generalizing p with
  | nil => rfl
  | cons c cs ih =>
    rw [Position.after_cons, ih, List.count_cons]
    simp only [Position.advance, beq_iff_eq]
    split <;> omega

/-! ## Characters -/

theorem isBlank_cases {c : Char} (h : isBlank c = true) :
    c = ' ' ∨ c = '\t' ∨ c = '\r' ∨ c = '\n' := by
  simpa [isBlank, or_assoc] using h

theorem endsWord_of_isBlank {c : Char} (h : isBlank c = true) : endsWord c = true := by
  simp [endsWord, h]

theorem Ended.stopped {cs : List Char} (h : Ended cs) : Stopped cs :=
  fun c hc => endsWord_of_isBlank (h c hc)

theorem endsWord_cases {c : Char} (h : endsWord c = true) :
    c = ' ' ∨ c = '\t' ∨ c = '\r' ∨ c = '\n' ∨ c = ')' := by
  simpa [endsWord, isBlank, or_assoc] using h

theorem isDecimal_of_endsWord {c : Char} (h : endsWord c = true) : isDecimal c = false := by
  rcases endsWord_cases h with rfl | rfl | rfl | rfl | rfl <;> decide

theorem extend?_of_endsWord {c : Char} (h : endsWord c = true) (digits : Digits) :
    digits.extend? c = none := by
  rcases endsWord_cases h with rfl | rfl | rfl | rfl | rfl <;> cases digits <;> decide

theorem isAlphanumeric_of_endsWord {c : Char} (h : endsWord c = true) :
    isAlphanumeric c = false := by
  rcases endsWord_cases h with rfl | rfl | rfl | rfl | rfl <;> decide

theorem ne_zero_of_isDecimal_eq_false {c : Char} (h : isDecimal c = false) : c ≠ '0' := by
  rintro rfl
  exact absurd h (by decide)

theorem endsWord_of_isDecimal {c : Char} (h : isDecimal c = true) : endsWord c = false := by
  cases hend : endsWord c with
  | false => rfl
  | true => simp [isDecimal_of_endsWord hend] at h

theorem BoolWord.bareWord {cs : List Char} (h : BoolWord cs) : BareWord cs := by
  match cs, h.2 with
  | c :: cs, hhash =>
    obtain rfl : c = '#' := by simpa using hhash
    refine ⟨by simp, h.1, ?_, ?_⟩
    · rintro _ ⟨⟩
      decide
    · cases cs <;> simp [beginsSigned, isSign]

/-! ## Numbers, digit by digit -/

/-- What a number's first digit begins. -/
def Digits.first (c : Char) : Digits := if c = '0' then .leadingZero else .decimal

theorem Digits.foldlM_extend?_decimal {cs : List Char} (h : ∀ c ∈ cs, isDecimal c = true)
    {digits : Digits} (hdigits : digits ≠ .hexadecimal) :
    ∃ digits', cs.foldlM Digits.extend? digits = some digits' := by
  induction cs generalizing digits with
  | nil => exact ⟨digits, rfl⟩
  | cons c cs ih =>
    have hc := h c (by simp)
    have hmark : ¬ (c = 'x' ∨ c = 'X') := by
      rintro (rfl | rfl) <;> exact absurd hc (by decide)
    have hextend : digits.extend? c = some .decimal := by
      cases digits with
      | leadingZero => simp [Digits.extend?, hmark, hc]
      | decimal => simp [Digits.extend?, hc]
      | hexadecimal => exact absurd rfl hdigits
    have hdecimal : Digits.decimal ≠ .hexadecimal := by simp
    obtain ⟨digits', hdigits'⟩ := ih (fun d hd => h d (by simp [hd])) hdecimal
    exact ⟨digits', by rw [List.foldlM_cons, hextend]; exact hdigits'⟩

theorem Digits.foldlM_extend?_hexadecimal {cs : List Char} (h : ∀ c ∈ cs, isHexadecimal c = true) :
    cs.foldlM Digits.extend? .hexadecimal = some .hexadecimal := by
  induction cs with
  | nil => rfl
  | cons c cs ih =>
    rw [List.foldlM_cons]
    simpa [Digits.extend?, h c (by simp)] using ih fun d hd => h d (by simp [hd])

/-- A number, as the scanner takes it apart: a sign, a digit, and what the digits go on with. -/
theorem NumberText.exists_digits {cs : List Char} (h : NumberText cs) :
    ∃ sign c ds digits, cs = sign ++ c :: ds ∧ OptionalSign sign ∧ isDecimal c = true ∧
      ds.foldlM Digits.extend? (Digits.first c) = some digits := by
  obtain ⟨sign, digits, rfl, hsign, hdigits | hdigits⟩ := h
  · obtain ⟨hne, hall⟩ := hdigits
    match digits, hne with
    | c :: ds, _ =>
      have hfirst : Digits.first c ≠ .hexadecimal := by
        unfold Digits.first
        split <;> simp
      obtain ⟨digits', hdigits'⟩ :=
        Digits.foldlM_extend?_decimal (fun d hd => hall d (List.mem_cons_of_mem c hd)) hfirst
      exact ⟨sign, c, ds, digits', rfl, hsign, hall c (by simp), hdigits'⟩
  · obtain ⟨mark, rest, rfl, hmark, hrest⟩ := hdigits
    refine ⟨sign, '0', mark :: rest, .hexadecimal, rfl, hsign, by decide, ?_⟩
    have hextend : Digits.leadingZero.extend? mark = some .hexadecimal := by
      rcases hmark with rfl | rfl <;> rfl
    simpa [Digits.first, hextend] using Digits.foldlM_extend?_hexadecimal hrest

namespace Scanner

/-- Where a token may begin. -/
def awaiting (afterOpening : Bool) (p : Position) : Scanner :=
  ⟨if afterOpening then .head else .gap, [], p⟩

/-! ## The end of a token -/

/-- Blanks before a token are passed over. -/
theorem scan_blank {c : Char} (h : isBlank c = true) (b : Bool) (p : Position) (cs : List Char) :
    (awaiting b p).scan p (c :: cs) = (awaiting b (p.advance c)).scan (p.advance c) cs := by
  cases b <;> simp [scan, awaiting, step, begin, between, h, endsWord_of_isBlank h]

/-- A token that the next character ends, or the end of the source. -/
theorem scan_ended {s : Scanner} {kind : TokenKind} {p : Position} {rest : List Char}
    (hfinish : rest = [] → s.finish p = s.emit kind p :: (awaiting false p).finish p)
    (hstep : ∀ c, endsWord c = true → s.step p c = s.finishThen kind p c) (hrest : Stopped rest) :
    s.scan p rest = s.emit kind p :: (awaiting false p).scan p rest := by
  cases rest with
  | nil => exact hfinish rfl
  | cons c rest =>
    rw [scan, hstep c (hrest c rfl), scan]
    simp [finishThen, step, awaiting]

theorem scan_word_ended {s : Scanner} {p : Position} {rest : List Char}
    (hshape : s.shape = .word ∨ s.shape = .sign) (hrest : Stopped rest) :
    s.scan p rest = s.emit s.wordKind p :: (awaiting false p).scan p rest := by
  refine scan_ended (fun _ => ?_) (fun c hc => ?_) hrest
  · rcases hshape with hshape | hshape <;> simp [finish, hshape, awaiting]
  · have hdigit := isDecimal_of_endsWord hc
    have hzero := ne_zero_of_isDecimal_eq_false hdigit
    rcases hshape with hshape | hshape <;> simp [step, hshape, hc, hdigit, hzero]

theorem scan_number_ended {s : Scanner} {digits : Digits} {p : Position} {rest : List Char}
    (hshape : s.shape = .number digits) (hrest : Stopped rest) :
    s.scan p rest = s.emit .number p :: (awaiting false p).scan p rest := by
  refine scan_ended (fun _ => ?_) (fun c hc => ?_) hrest
  · simp [finish, hshape, awaiting]
  · have hunderscore : c ≠ '_' := by
      rintro rfl
      exact absurd hc (by decide)
    simp [step, hshape, extend?_of_endsWord hc, isAlphanumeric_of_endsWord hc, hunderscore]

theorem scan_head_ended {s : Scanner} {p : Position} {rest : List Char} (hshape : s.shape = .head)
    (hread : s.read ≠ []) (hrest : Stopped rest) (hend : rest = [] → s.atDefine = true) :
    s.scan p rest = s.emit s.headKind p :: (awaiting false p).scan p rest := by
  refine scan_ended (fun hnil => ?_) (fun c hc => ?_) hrest
  · simp [finish, hshape, hend hnil, headKind, awaiting]
  · simp [step, hshape, hc, hread]

/-! ## The characters of a token -/

theorem scan_cons {s s' : Scanner} {p : Position} {c : Char} (h : s.step p c = ([], s'))
    (rest : List Char) : s.scan p (c :: rest) = s'.scan (p.advance c) rest := by
  simp [scan, h]

/-- Characters that leave the shape as it is. -/
theorem scan_extend {shape : Shape} {o : Position} {cs : List Char} (rest : List Char)
    (hstep : ∀ c ∈ cs, ∀ read p,
      (⟨shape, read, o⟩ : Scanner).step p c = ([], ⟨shape, c :: read, o⟩))
    (read : List Char) (p : Position) :
    (⟨shape, read, o⟩ : Scanner).scan p (cs ++ rest)
      = (⟨shape, cs.reverse ++ read, o⟩ : Scanner).scan (p.after cs) rest := by
  induction cs generalizing read p with
  | nil => rfl
  | cons c cs ih =>
    have ih := ih (fun d hd => hstep d (by simp [hd])) (c :: read) (p.advance c)
    rw [List.cons_append, scan_cons (hstep c (by simp) read p), ih]
    simp

theorem scan_word {o : Position} {cs : List Char} (rest : List Char) (h : Unbroken cs)
    (read : List Char) (p : Position) :
    (⟨.word, read, o⟩ : Scanner).scan p (cs ++ rest)
      = (⟨.word, cs.reverse ++ read, o⟩ : Scanner).scan (p.after cs) rest :=
  scan_extend rest (fun c hc read p => by simp [step, push, h c hc]) read p

/-- A head goes on with anything that does not end it, and an opening parenthesis ends only the word
`define`. -/
theorem scan_head {o : Position} {cs : List Char} (rest : List Char) (h : Unbroken cs)
    (read : List Char) (p : Position) (hdefine : ¬ defineChars ++ ['('] <+: read.reverse ++ cs) :
    (⟨.head, read, o⟩ : Scanner).scan p (cs ++ rest)
      = (⟨.head, cs.reverse ++ read, o⟩ : Scanner).scan (p.after cs) rest := by
  induction cs generalizing read p with
  | nil => rfl
  | cons c cs ih =>
    have hc : ¬ (c = '(' ∧ read.reverse = defineChars) := by
      rintro ⟨rfl, hread⟩
      exact hdefine ⟨cs, by simp [hread]⟩
    have ih := ih (fun d hd => h d (by simp [hd])) (c :: read) (p.advance c)
      (by simpa using hdefine)
    have hstep : (⟨.head, read, o⟩ : Scanner).step p c = ([], ⟨.head, c :: read, o⟩) := by
      simp only [step, h c (by simp), Bool.false_eq_true, if_false]
      rw [if_neg (by simpa [atDefine, defineChars] using hc)]
      rfl
    rw [List.cons_append, scan_cons hstep, ih]
    simp

theorem scan_digits {o : Position} {cs : List Char} {digits digits' : Digits} (rest : List Char)
    (h : cs.foldlM Digits.extend? digits = some digits') (read : List Char) (p : Position) :
    (⟨.number digits, read, o⟩ : Scanner).scan p (cs ++ rest)
      = (⟨.number digits', cs.reverse ++ read, o⟩ : Scanner).scan (p.after cs) rest := by
  induction cs generalizing digits read p with
  | nil => cases h; rfl
  | cons c cs ih =>
    rw [List.foldlM_cons] at h
    obtain ⟨next, hnext, h⟩ := Option.bind_eq_some_iff.1 h
    have ih := ih h (c :: read) (p.advance c)
    simpa [scan, step, hnext, push] using ih

/-- The induction follows the body, an escape with the character after it at a time. -/
theorem scan_quoted {o : Position} {delimiter : Char} {body : List Char} (rest : List Char)
    (h : StringBody delimiter body) (read : List Char) (p : Position) :
    (⟨.quoted delimiter false, read, o⟩ : Scanner).scan p (body ++ rest)
      = (⟨.quoted delimiter false, body.reverse ++ read, o⟩ : Scanner).scan (p.after body)
        rest := by
  induction h generalizing read p with
  | nil => rfl
  | @plain c body hslash hdelimiter _ ih =>
    have ih := ih (c :: read) (p.advance c)
    simpa [scan, step, push, hslash, hdelimiter] using ih
  | @escaped c body _ ih =>
    have ih := ih (c :: '\\' :: read) ((p.advance '\\').advance c)
    simpa [scan, step, push] using ih

/-! ## Single tokens -/

theorem scan_begin {c : Char} (hword : endsWord c = false) (hopen : c ≠ '(') (p : Position)
    (rest : List Char) :
    (awaiting false p).scan p (c :: rest)
      = (⟨opening c, [c], p⟩ : Scanner).scan (p.advance c) rest := by
  have hblank : isBlank c = false ∧ c ≠ ')' := by simpa [endsWord] using hword
  simp [scan, awaiting, step, begin, hblank, hopen]

/-- A sign by itself keeps its own shape; any other word ends up as one. -/
theorem scan_bareWord {cs : List Char} (h : BareWord cs) (p : Position) (rest : List Char) :
    ∃ shape, (shape = .word ∨ shape = .sign) ∧
      (awaiting false p).scan p (cs ++ rest)
        = (⟨shape, cs.reverse, p⟩ : Scanner).scan (p.after cs) rest := by
  obtain ⟨c, cs, rfl⟩ := List.exists_cons_of_ne_nil h.nonempty
  obtain ⟨hdigit, hopen, hquote⟩ := h.first c rfl
  have hbegin := scan_begin (h.unbroken c (by simp)) hopen p (cs ++ rest)
  have hzero := ne_zero_of_isDecimal_eq_false hdigit
  cases hsign : isSign c with
  | false =>
    have hopening : opening c = .word := by
      simp only [isSign] at hsign
      simp [opening, hsign, hzero, hdigit, hquote]
    refine ⟨.word, .inl rfl, ?_⟩
    rw [List.cons_append, hbegin, hopening,
      scan_word rest (fun d hd => h.unbroken d (by simp [hd]))]
    simp
  | true =>
    have hopening : opening c = .sign := by
      simp only [isSign] at hsign
      simp [opening, hsign]
    cases cs with
    | nil => exact ⟨.sign, .inr rfl, by rw [List.cons_append, hbegin, hopening]; rfl⟩
    | cons d cs =>
      have hdigit' : isDecimal d = false := by
        have hunsigned := h.unsigned
        simpa [beginsSigned, hsign] using hunsigned
      have hzero' := ne_zero_of_isDecimal_eq_false hdigit'
      have hstep : (⟨.sign, [c], p⟩ : Scanner).step (p.advance c) d = ([], ⟨.word, [d, c], p⟩) := by
        simp [step, hzero', hdigit', h.unbroken d (by simp), push]
      refine ⟨.word, .inl rfl, ?_⟩
      rw [List.cons_append, hbegin, hopening, List.cons_append, scan_cons hstep,
        scan_word rest (fun e he => h.unbroken e (by simp [he]))]
      simp

theorem scan_number {cs : List Char} (h : NumberText cs) (p : Position) (rest : List Char) :
    ∃ digits, (awaiting false p).scan p (cs ++ rest)
      = (⟨.number digits, cs.reverse, p⟩ : Scanner).scan (p.after cs) rest := by
  obtain ⟨sign, c, ds, digits, rfl, hsign, hc, hds⟩ := h.exists_digits
  have hnot : ∀ d, isDecimal d = false → c ≠ d := by
    rintro d hd rfl
    simp [hc] at hd
  refine ⟨digits, ?_⟩
  rcases hsign with rfl | ⟨s, rfl, hs⟩
  · have hopening : opening c = .number (Digits.first c) := by
      unfold opening Digits.first
      rw [if_neg (by simp [hnot '+' (by decide), hnot '-' (by decide)]), hc]
      split <;> simp
    rw [List.nil_append, List.cons_append,
      scan_begin (endsWord_of_isDecimal hc) (hnot '(' (by decide)), hopening, scan_digits rest hds]
    simp
  · have hsign : s = '+' ∨ s = '-' := by simpa [isSign] using hs
    have hword : endsWord s = false ∧ s ≠ '(' := by rcases hsign with rfl | rfl <;> decide
    have hopening : opening s = .sign := by rcases hsign with rfl | rfl <;> rfl
    have hstep : ∀ q, (⟨.sign, [s], p⟩ : Scanner).step q c
        = ([], ⟨.number (Digits.first c), [c, s], p⟩) := by
      intro q
      unfold Digits.first
      simp only [step, hc, if_true, push]
      split <;> rfl
    rw [List.append_assoc, List.singleton_append, scan_begin hword.1 hword.2, hopening,
      List.cons_append, scan_cons (hstep _), scan_digits rest hds]
    simp

theorem scan_string {cs : List Char} (h : StringText cs) (p : Position) (rest : List Char) :
    (awaiting false p).scan p (cs ++ rest)
      = ⟨.string, String.ofList cs, p.offset, (p.after cs).offset, p.line⟩
        :: (awaiting false (p.after cs)).scan (p.after cs) rest := by
  obtain ⟨delimiter, body, hquote, hbody, rfl⟩ := h
  have hdelimiter : delimiter = '"' ∨ delimiter = '\'' := by simpa [isQuote] using hquote
  have hword : endsWord delimiter = false ∧ delimiter ≠ '(' := by
    rcases hdelimiter with rfl | rfl <;> decide
  have hopening : opening delimiter = .quoted delimiter false := by
    rcases hdelimiter with rfl | rfl <;> rfl
  have hslash : delimiter ≠ '\\' := by rcases hdelimiter with rfl | rfl <;> decide
  rw [List.append_assoc, List.cons_append, scan_begin hword.1 hword.2, hopening,
    scan_quoted _ hbody, List.singleton_append, scan]
  simp [step, hslash, push, between, awaiting, emit, text]

theorem scan_bareWord_ended {text : String} (h : BareWord text.toList) {rest : List Char}
    (hrest : Stopped rest) (p : Position) :
    ∃ t p', t.lexeme = ⟨if text.toList.head? = some '#' then .bool else .word, text⟩ ∧
      (awaiting false p).scan p (text.toList ++ rest) = t :: (awaiting false p').scan p' rest := by
  obtain ⟨shape, hshape, hscan⟩ := scan_bareWord h p rest
  rw [hscan, scan_word_ended hshape hrest]
  exact ⟨_, _, by simp [wordKind], rfl⟩

theorem scan_firstWord_ended {text : String} (hne : text.toList ≠ []) (h : Unbroken text.toList)
    (hopen : ¬ defineChars ++ ['('] <+: text.toList) {rest : List Char} (hrest : Stopped rest)
    (hend : rest = [] → text.toList = defineChars) (p : Position) :
    ∃ t p', t.lexeme = ⟨if text.toList = defineChars then .define else .call, text⟩ ∧
      (awaiting true p).scan p (text.toList ++ rest) = t :: (awaiting false p').scan p' rest := by
  have hatDefine : (⟨.head, text.toList.reverse, p⟩ : Scanner).atDefine
      = decide (text.toList = defineChars) := by
    simp only [atDefine, List.reverse_reverse]
    rfl
  have hscan : (awaiting true p).scan p (text.toList ++ rest)
      = (⟨.head, text.toList.reverse, p⟩ : Scanner).scan (p.after text.toList) rest := by
    have hhead := scan_head (o := p) rest h [] p hopen
    rwa [List.append_nil] at hhead
  rw [hscan, scan_head_ended rfl (by simpa using hne) hrest
    (fun hnil => by rw [hatDefine]; simpa using hend hnil)]
  exact ⟨_, _, by simp [headKind, hatDefine], rfl⟩

/-- A lexeme that fits is read back, and the next one may begin. -/
theorem scan_fits {b : Bool} {l : Lexeme} (h : l.Fits b) {rest : List Char} (hrest : Stopped rest)
    (hend : rest = [] → l.kind ≠ .call) (p : Position) :
    ∃ t p', t.lexeme = l ∧ (awaiting b p).scan p (l.text.toList ++ rest)
      = t :: (awaiting l.opens p').scan p' rest := by
  cases h with
  | opening => exact ⟨_, p.advance '(', rfl, rfl⟩
  | closing => exact ⟨_, p.advance ')', rfl, rfl⟩
  | define =>
    have hdefine : "define".toList = defineChars := rfl
    exact scan_firstWord_ended (by decide) (by decide) (by decide) hrest (fun _ => hdefine) p
  | call hcall =>
    have hscan := scan_firstWord_ended hcall.nonempty hcall.unbroken hcall.not_defineOpen hrest
      (fun hnil => absurd rfl (hend hnil)) p
    rwa [if_neg hcall.not_define] at hscan
  | word hvariable =>
    have hscan := scan_bareWord_ended hvariable.1 hrest p
    rwa [if_neg hvariable.2] at hscan
  | bool hbool =>
    have hscan := scan_bareWord_ended hbool.bareWord hrest p
    rwa [if_pos hbool.2] at hscan
  | number hnumber =>
    obtain ⟨digits, hscan⟩ := scan_number hnumber p rest
    rw [hscan, scan_number_ended rfl hrest]
    exact ⟨_, _, by simp, rfl⟩
  | string hstring =>
    exact ⟨_, _, by simp [Token.lexeme], scan_string hstring p rest⟩

end Scanner

/-- Lexemes that fit are read back from any text they can be written as. -/
theorem scan_spelling {ls : List Lexeme} {cs : List Char} (h : Spelling ls cs) {b : Bool}
    (hfits : Fitting b ls false) (p : Position) :
    ((Scanner.awaiting b p).scan p cs).map Token.lexeme = ls ++ [⟨.eof, ""⟩] := by
  induction h generalizing b p with
  | nil =>
    obtain rfl : b = false := hfits
    rfl
  | blank hblank _ ih => rw [Scanner.scan_blank hblank, ih hfits]
  | lexeme hended hend _ ih =>
    obtain ⟨t, p', ht, hscan⟩ := Scanner.scan_fits hfits.1 hended.stopped hend p
    rw [hscan, List.map_cons, ht, ih hfits.2 p', List.cons_append]

end HostLisp
