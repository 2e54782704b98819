import HostLisp.Proofs.Spelling

/-!
# The token language, both ways

Sources that are read to their end, and what they are read as, put together from the two directions
shown before: the scanner reads nothing but lexemes that fit (`tokenize_shaped`), and reads lexemes
that fit from every spelling of them (`scan_spelling`).

A list of lexemes is `WellShaped` if it ends in the end of the source and the lexemes before it fit
at their places.  So each opening parenthesis has the first word of a form right behind it, such
words stand nowhere else, and every text is one that its kind allows.  For the way back the blanks
are chosen lexeme by lexeme (`written`).  There has to be one between two lexemes.  At the end of
the source there need not be any, except that the first word of a form other than `define` goes on
until something ends it, and the end of the source does not.
-/

namespace HostLisp

open Text

/-- The lexeme at the end of a source. -/
def Lexeme.eof : Lexeme := ⟨.eof, ""⟩

/-- The lexemes of a source that is read to its end. -/
def WellShaped (ls : List Lexeme) : Prop :=
  ∃ body, ls = body ++ [.eof] ∧ Fitting false body false

theorem wellShaped_concat_iff {ls : List Lexeme} :
    WellShaped (ls ++ [.eof]) ↔ Fitting false ls false := by
  constructor
  · rintro ⟨body, heq, hbody⟩
    rwa [List.append_cancel_right heq]
  · exact fun h => ⟨ls, rfl, h⟩

/-! ## From sources to lexemes -/

theorem Shaped.ne_nil {b : Bool} {ls : List Lexeme} (h : Shaped b ls) : ls ≠ [] := by
  cases h <;> simp

/-- Without an error at its end, what was read fits. -/
theorem Shaped.fitting_of_eof {b : Bool} {ls : List Lexeme} (h : Shaped b ls) {last : Lexeme}
    (hlast : ls.getLast? = some last) (heof : last.kind = .eof) :
    ∃ body, ls = body ++ [.eof] ∧ Fitting b body false := by
  induction h with
  | eof => exact ⟨[], rfl, rfl⟩
  | error =>
    obtain rfl := Option.some.inj hlast
    cases heof
  | @cons _ l _ hfits hrest ih =>
    rw [List.getLast?_cons_of_ne_nil hrest.ne_nil] at hlast
    obtain ⟨body, hbody, hfitting⟩ := ih hlast
    exact ⟨l :: body, by rw [hbody, List.cons_append], hfits, hfitting⟩

/-! ## From lexemes to sources -/

/-- Lexemes written down one after the other, each with what is put behind it. -/
def written : List (Lexeme × List Char) → List Char
  | [] => []
  | (l, gap) :: rest => l.text.toList ++ (gap ++ written rest)

/-- Only blanks are put behind lexemes, and there is one before each further lexeme and after the
first word of a form. -/
def Separated : List (Lexeme × List Char) → Prop
  | [] => True
  | (l, gap) :: rest =>
    (∀ c ∈ gap, isBlank c = true) ∧ (rest ≠ [] ∨ l.kind = .call → gap ≠ []) ∧ Separated rest

theorem Spelling.blanks {gap cs : List Char} {ls : List Lexeme}
    (hgap : ∀ c ∈ gap, isBlank c = true) (h : Spelling ls cs) : Spelling ls (gap ++ cs) := by
  induction gap with
  | nil => exact h
  | cons c gap ih => exact .blank (hgap c (by simp)) (ih fun d hd => hgap d (by simp [hd]))

theorem spelling_written {parts : List (Lexeme × List Char)} (h : Separated parts) :
    Spelling (parts.map (·.1)) (written parts) := by
  induction parts with
  | nil => exact .nil
  | cons part rest ih =>
    obtain ⟨l, gap⟩ := part
    obtain ⟨hgap, hneeded, hrest⟩ := h
    refine .lexeme ?_ (fun hnil hcall => ?_) ((ih hrest).blanks hgap)
    · intro c hc
      cases gap with
      | cons d gap =>
        obtain rfl : d = c := by simpa using hc
        exact hgap d (by simp)
      | nil =>
        -- Nothing is behind the lexeme, so nothing comes after it.
        cases rest with
        | nil => cases hc
        | cons next rest => exact absurd rfl (hneeded (.inl (by simp)))
    · exact hneeded (.inr hcall) (List.append_eq_nil_iff.1 hnil).1

/-! ## Both ways -/

/-- The tokens of a source that is read to its end are well shaped; and well-shaped lexemes are read
back from every source that writes them down with blanks between them. -/
theorem token_language_is_exact :
    (∀ source last, (tokenize source).getLast? = some last → last.kind = .eof →
      WellShaped ((tokenize source).map Token.lexeme)) ∧
    (∀ lead parts, (∀ c ∈ lead, isBlank c = true) → Separated parts →
      WellShaped (parts.map (·.1) ++ [.eof]) →
      (tokenize (String.ofList (lead ++ written parts))).map Token.lexeme
        = parts.map (·.1) ++ [.eof]) := by
  refine ⟨fun source last hlast heof => ?_, fun lead parts hlead hparts hshaped => ?_⟩
  · have hlexeme : ((tokenize source).map Token.lexeme).getLast? = some last.lexeme := by
      rw [List.getLast?_map, hlast, Option.map_some]
    exact (tokenize_shaped source).fitting_of_eof hlexeme heof
  · have hspelling := (spelling_written hparts).blanks hlead
    rw [tokenize, String.toList_ofList]
    exact scan_spelling hspelling (wellShaped_concat_iff.1 hshaped) .origin

/-- A definition over several lines, with a call that has a parenthesis in its name. -/
def spacedDefinition : List (Lexeme × List Char) :=
  [(.opening, ['\n']), (⟨.define, "define"⟩, [' ', ' ']), (⟨.word, "-x"⟩, ['\t']),
    (.opening, [' ']), (⟨.call, "f("⟩, ['\r', '\n']), (⟨.string, "'(\\''"⟩, [' ']),
    (⟨.number, "+0x"⟩, [' ']), (.closing, [' ']), (.closing, [])]

theorem fitting_spacedDefinition : Fitting false (spacedDefinition.map (·.1)) false := by
  refine ⟨.opening, .define, .word (by decide), .opening, .call (by decide), .string ?_,
    .number ?_, .closing, .closing, rfl⟩
  · exact ⟨'\'', ['(', '\\', '\''], rfl,
      .plain (by decide) (by decide) (.escaped .nil), by decide⟩
  · exact ⟨['+'], ['0', 'x'], by decide, .inr ⟨'+', rfl, rfl⟩,
      .inr ⟨'x', [], rfl, .inl rfl, by simp⟩⟩

/-- The definition is read back from its own text, whose tokens are therefore well shaped. -/
theorem spacedDefinition_is_read_back :
    Separated spacedDefinition ∧ WellShaped (spacedDefinition.map (·.1) ++ [.eof]) ∧
      (tokenize "\t(\ndefine  -x\t( f(\r\n'(\\'' +0x ) )").map Token.lexeme
        = spacedDefinition.map (·.1) ++ [.eof] ∧
      WellShaped ((tokenize "(\ndefine\n").map Token.lexeme) := by
  have hseparated : Separated spacedDefinition := by
    simp [spacedDefinition, Separated, isBlank, Lexeme.closing]
  have hshaped := wellShaped_concat_iff.2 fitting_spacedDefinition
  have hlast : (tokenize "(\ndefine\n").getLast? = some ⟨.eof, "", 9, 9, 3⟩ := by decide
  have hlead : ∀ c ∈ ['\t'], isBlank c = true := by simp [isBlank]
  refine ⟨hseparated, hshaped, ?_, ?_⟩
  · exact token_language_is_exact.2 ['\t'] spacedDefinition hlead hseparated hshaped
  · exact token_language_is_exact.1 "(\ndefine\n" _ hlast rfl

end HostLisp
