import HostLisp.Proofs.RoundTrip

/-!
# The parameters of a `lambda`

The list of parameters is in parentheses like a form, and the scanner reads it like one: its first
word is the first word of a form, and only the words after it are variables.  So the two are not
held to the same rule.  The words after the first have to be variables by themselves
(`IsBareName`).  The first one may be anything that can begin a form, a number or an opening
parenthesis included; what it may not be is the beginning of a definition, which is a variable
elsewhere (`BeginsDefinition`).  And there has to be a first one.

`parse_lambdaSource_iff` says which lists of parameters are read, for any list of texts.  The main
result puts this in terms of words and of what they are by themselves, and says when that is the
same as all of them being variables.
-/

namespace HostLisp

open Text

/-! ## Words by themselves -/

/-- A text that neither a blank nor a closing parenthesis breaks up. -/
def IsWord (w : String) : Prop := w.toList ≠ [] ∧ Unbroken w.toList

instance (w : String) : Decidable (IsWord w) :=
  inferInstanceAs (Decidable (w.toList ≠ [] ∧ Unbroken w.toList))

/-- A text that is one variable by itself. -/
def IsBareName (w : String) : Prop :=
  (tokenize w).map Token.lexeme = [⟨.word, w⟩, ⟨.eof, ""⟩]

instance (w : String) : Decidable (IsBareName w) :=
  inferInstanceAs (Decidable (_ = _))

/-- A word that is taken for the beginning of a definition where a form begins. -/
def BeginsDefinition (w : String) : Prop := w = "define" ∨ "define(".toList <+: w.toList

instance (w : String) : Decidable (BeginsDefinition w) :=
  inferInstanceAs (Decidable (_ ∨ _))

theorem isBareName_iff {w : String} : IsBareName w ↔ VariableName w := by
  constructor
  · intro h
    have hshaped := tokenize_shaped w
    rw [h] at hshaped
    cases hshaped with
    | cons hfits _ =>
      cases hfits with
      | word hvariable => exact hvariable
  · intro h
    have hnil : Stopped [] := fun c hc => by cases hc
    obtain ⟨t, p, ht, hscan⟩ := Scanner.scan_bareWord_ended h.1 hnil .origin
    rw [List.append_nil] at hscan
    rw [if_neg h.2] at ht
    have htokens : tokenize w = t :: (Scanner.awaiting false p).scan p [] := hscan
    rw [IsBareName, htokens, List.map_cons, ht]
    rfl

theorem callWord_iff {w : String} : CallWord w.toList ↔ IsWord w ∧ ¬ BeginsDefinition w := by
  have hdefine : w = "define" ↔ w.toList = defineChars := by
    rw [← String.toList_inj]
    rfl
  rw [BeginsDefinition, hdefine]
  constructor
  · rintro ⟨hne, hunbroken, hdefine, hopen⟩
    exact ⟨⟨hne, hunbroken⟩, fun h => h.elim hdefine hopen⟩
  · rintro ⟨⟨hne, hunbroken⟩, h⟩
    exact ⟨hne, hunbroken, fun hdefine => h (.inl hdefine), fun hopen => h (.inr hopen)⟩

/-- Such a word is a variable by itself. -/
theorem BeginsDefinition.isBareName {w : String} (h : BeginsDefinition w) (hword : IsWord w) :
    IsBareName w := by
  have hprefix : ['d', 'e'] <+: w.toList := by
    rcases h with rfl | hopen
    · decide
    · exact List.IsPrefix.trans (by decide) hopen
  obtain ⟨rest, hrest⟩ := hprefix
  have hchars : w.toList = 'd' :: 'e' :: rest := hrest.symm
  refine isBareName_iff.2 ⟨⟨hword.1, hword.2, ?_, ?_⟩, ?_⟩
  · rw [hchars]
    rintro _ ⟨⟩
    decide
  · rw [hchars]
    rfl
  · rw [hchars]
    simp

/-! ## Reading a list of parameters -/

/-- A `lambda` with these parameters, as source text. -/
def lambdaSource (params : List String) : String :=
  "(lambda (" ++ " ".intercalate params ++ ") (f))"

/-- Words with a blank before each. -/
def spacedWords : List String → List Char
  | [] => []
  | w :: words => ' ' :: (w.toList ++ spacedWords words)

theorem intercalate_words (first : String) (rest : List String) :
    [' '].intercalate ((first :: rest).map String.toList)
      = first.toList ++ spacedWords rest := by
  induction rest generalizing first with
  | nil => simp [spacedWords]
  | cons second rest ih =>
    rw [List.map_cons, List.map_cons, List.intercalate_cons_cons, ← List.map_cons, ih, spacedWords,
      List.append_assoc, List.singleton_append]

theorem stopped_spacedWords (words : List String) {tail : List Char} (htail : Stopped tail) :
    Stopped (spacedWords words ++ tail) := by
  cases words with
  | nil => exact htail
  | cons w words =>
    rintro c ⟨⟩
    rfl

namespace Scanner

/-- Variables with a blank before each are read as such, up to whatever ends the last one. -/
theorem scan_variables {names : List String} (hnames : ∀ w ∈ names, VariableName w)
    {tail : List Char} (htail : Stopped tail) (p : Position) :
    ∃ p', ((awaiting false p).scan p (spacedWords names ++ tail)).map Token.lexeme
      = names.map (⟨.word, ·⟩) ++ ((awaiting false p').scan p' tail).map Token.lexeme := by
  induction names generalizing p with
  | nil => exact ⟨p, rfl⟩
  | cons w names ih =>
    have hw := hnames w (by simp)
    obtain ⟨t, q, ht, hscan⟩ :=
      scan_bareWord_ended hw.1 (stopped_spacedWords names htail) (p.advance ' ')
    obtain ⟨p', hrest⟩ := ih (fun w hw => hnames w (by simp [hw])) q
    refine ⟨p', ?_⟩
    rw [if_neg hw.2] at ht
    rw [spacedWords, List.cons_append, List.append_assoc, scan_blank rfl, hscan, List.map_cons, ht,
      hrest]
    rfl

end Scanner

theorem toList_lambdaSource (first : String) (rest : List String) :
    (lambdaSource (first :: rest)).toList
      = "(lambda (".toList ++ (first.toList ++ (spacedWords rest ++ ") (f))".toList)) := by
  have hblank : " ".toList = [' '] := rfl
  rw [lambdaSource, String.toList_append, String.toList_append, String.toList_intercalate, hblank,
    intercalate_words, List.append_assoc, List.append_assoc]

theorem lexemes_lambdaSource {params : List String} (h : ParamNames params) :
    (tokenize (lambdaSource params)).map Token.lexeme
      = (Node.list [.lambda params "f" []]).lexemes ++ [⟨.eof, ""⟩] := by
  match params, h with
  | first :: rest, ⟨hfirst, hrest⟩ =>
    -- the text around the parameters is fixed, so it is enough to let the scanner run over it
    have hopening : ∀ cs, ∃ p,
        ((Scanner.awaiting false .origin).scan .origin ("(lambda (".toList ++ cs)).map Token.lexeme
          = [.opening, ⟨.call, "lambda"⟩, .opening]
            ++ ((Scanner.awaiting true p).scan p cs).map Token.lexeme := fun cs => ⟨_, rfl⟩
    have hclosing : ∀ p, ((Scanner.awaiting false p).scan p ") (f))".toList).map Token.lexeme
        = [.closing, .opening, ⟨.call, "f"⟩, .closing, .closing, ⟨.eof, ""⟩] := fun p => rfl
    have htail : Stopped ") (f))".toList := by
      rintro c ⟨⟩
      rfl
    obtain ⟨p, hp⟩ := hopening (first.toList ++ (spacedWords rest ++ ") (f))".toList))
    obtain ⟨hne, hunbroken, hdefine, hopen⟩ := hfirst
    have hstopped := stopped_spacedWords rest htail
    obtain ⟨t, q, ht, hfirst⟩ :=
      Scanner.scan_firstWord_ended hne hunbroken hopen hstopped (by simp) p
    obtain ⟨r, hr⟩ := Scanner.scan_variables hrest htail q
    have htokens : tokenize (lambdaSource (first :: rest))
        = (Scanner.awaiting false .origin).scan .origin (lambdaSource (first :: rest)).toList := rfl
    rw [htokens, toList_lambdaSource, hp, hfirst, List.map_cons, ht, if_neg hdefine, hr, hclosing]
    simp [Node.lexemes, Node.lexemesAll, Lexeme.ofParams]

/-- Which lists of parameters are read. -/
theorem parse_lambdaSource_iff {params : List String} :
    parse (lambdaSource params) = .ok (.list [.lambda params "f" []]) ↔ ParamNames params := by
  constructor
  · intro h
    have hprogram : ∀ e ∈ [Node.lambda params "f" []], e.Proper ∧ e.nesting ≤ Parse.maxNesting :=
      parse_sound h
    cases (hprogram _ (List.mem_singleton.2 rfl)).1 with
    | lambda hparams _ _ => exact hparams
  · intro h
    have hprogram : (Node.list [.lambda params "f" []]).IsProgram Parse.maxNesting := by
      intro e he
      obtain rfl := List.mem_singleton.1 he
      have hname : CallName "f" := by decide
      exact ⟨.lambda h hname (by simp), Nat.succ_le_succ (Nat.zero_le _)⟩
    exact parse_of_lexemes hprogram (lexemes_lambdaSource h)

/-! ## The rule for words -/

/-- The parameters that are read, by what the words are by themselves. -/
theorem paramNames_cons_iff {first : String} {rest : List String} (hfirst : IsWord first) :
    ParamNames (first :: rest) ↔ ¬ BeginsDefinition first ∧ ∀ w ∈ rest, IsBareName w := by
  simp only [ParamNames, callWord_iff, isBareName_iff, hfirst, true_and]

/-- **A `lambda` takes a first word and then variables.** Words are read as the parameters of a
`lambda` if there is a first one, which may be any word that begins no definition, and all others
are variables by themselves.  That is the same as all of them being variables only where the first
one is a variable that begins no definition, or a later one is not a variable. -/
theorem lambda_takes_first_word_then_variables (params : List String)
    (hwords : ∀ w ∈ params, IsWord w) :
    (parse (lambdaSource params) = .ok (.list [.lambda params "f" []]) ↔
      ∃ first rest, params = first :: rest ∧ ¬ BeginsDefinition first ∧
        ∀ w ∈ rest, IsBareName w) ∧
    ((parse (lambdaSource params) = .ok (.list [.lambda params "f" []]) ↔
        ∀ w ∈ params, IsBareName w) ↔
      ∃ first rest, params = first :: rest ∧
        ((IsBareName first ∧ ¬ BeginsDefinition first) ∨ ∃ w ∈ rest, ¬ IsBareName w)) := by
  rw [parse_lambdaSource_iff]
  cases params with
  | nil => simp [ParamNames]
  | cons first rest =>
    have hfirst : IsWord first := hwords first (by simp)
    have hbare : BeginsDefinition first → IsBareName first := fun h => h.isBareName hfirst
    rw [paramNames_cons_iff hfirst]
    have hsome : (∃ w ∈ rest, ¬ IsBareName w) ↔ ¬ ∀ w ∈ rest, IsBareName w := by simp
    constructor
    · simp
    · simp only [List.forall_mem_cons, List.cons.injEq, and_assoc, exists_and_left,
        exists_eq_left', hsome]
      tauto

theorem opening_parenthesis_then_variables_are_read :
    (∀ w ∈ ["(1", "-", "define"], IsWord w) ∧
    parse (lambdaSource ["(1", "-", "define"])
      = .ok (.list [.lambda ["(1", "-", "define"] "f" []]) := by
  have hwords : ∀ w ∈ ["(1", "-", "define"], IsWord w := by decide
  have hrule := (lambda_takes_first_word_then_variables _ hwords).1
  exact ⟨hwords, hrule.2 ⟨"(1", ["-", "define"], rfl, by decide, by decide⟩⟩

/-- Being variables is not what makes words parameters.  It is not needed of a number, and it is not
enough for a first word that begins a definition, nor where there are no words at all. -/
theorem parameters_are_not_the_variables :
    (IsWord "1" ∧ ¬ IsBareName "1" ∧
      parse (lambdaSource ["1"]) = .ok (.list [.lambda ["1"] "f" []])) ∧
    (IsWord "define" ∧ IsBareName "define" ∧
      parse (lambdaSource ["define"]) ≠ .ok (.list [.lambda ["define"] "f" []])) ∧
    parse (lambdaSource []) ≠ .ok (.list [.lambda [] "f" []]) := by
  simp only [ne_eq, parse_lambdaSource_iff]
  decide

end HostLisp
