import HostLisp.Library.Format
import Mathlib.Logic.ExistsUnique

/-!
# Templates and their arguments

A template is a sequence of *segments*, told apart by their spelling alone (`Template`): an ordinary
character, a doubled percent sign, a verb, a percent sign before any other character, and a percent
sign that nothing follows.  There is exactly one way to take a template apart.

What a template shows is then said by position: a verb that has `index` verbs before it shows the
argument at `index` (`Segment.render`), whatever the arguments before it were and whether they
fitted.  Arguments past the last verb are listed at the end.

From this it follows how templates are put together: one that uses up its own arguments can be
followed by any other.
-/

namespace HostLisp.Library

/-! ## Segments -/

/-- A part of a template as it is written. -/
inductive Segment where
  /-- A character that stands for itself. -/
  | plain (c : Char)
  /-- A doubled percent sign. -/
  | percent
  | verb (v : Verb)
  /-- A percent sign before a character that is no verb. -/
  | unknown (c : Char)
  /-- A percent sign at the end of the template. -/
  | dangling
  deriving DecidableEq, Repr

namespace Segment

/-- The characters of a segment. -/
def spelling : Segment → List Char
  | .plain c => [c]
  | .percent => ['%', '%']
  | .verb v => ['%', v.letter]
  | .unknown c => ['%', c]
  | .dangling => ['%']

/-- Whether a segment may stand before others, and is not one of another sort. -/
def Inner : Segment → Prop
  | .plain c => c ≠ '%'
  | .percent | .verb _ => True
  | .unknown c => c ≠ '%' ∧ ∀ v : Verb, c ≠ v.letter
  | .dangling => False

/-- What the segment is to the formatter. -/
def piece : Segment → Piece
  | .plain c => .literal [c]
  | .percent | .dangling => .literal ['%']
  | .verb v => .verb v
  | .unknown c => .literal ['%', c]

/-- Whether the segment shows an argument. -/
def isVerb : Segment → Bool
  | .verb _ => true
  | _ => false

end Segment

/-- How many arguments the segments show. -/
def verbCount (segments : List Segment) : Nat := segments.countP Segment.isVerb

/-- The template consists of the segments. -/
inductive Template : List Char → List Segment → Prop where
  | nil : Template [] []
  | dangling : Template ['%'] [.dangling]
  | cons {s : Segment} {rest : List Char} {segments : List Segment} (hs : s.Inner)
    (hrest : Template rest segments) : Template (s.spelling ++ rest) (s :: segments)

/-! ## Taking templates apart -/

theorem Verb.ofLetter?_eq_some_iff {c : Char} {v : Verb} :
    Verb.ofLetter? c = some v ↔ c = v.letter := by
  constructor
  · intro h
    unfold Verb.ofLetter? at h
    split at h <;> cases h <;> rfl
  · rintro rfl
    cases v <;> rfl

theorem Verb.ofLetter?_eq_none_iff {c : Char} :
    Verb.ofLetter? c = none ↔ ∀ v : Verb, c ≠ v.letter := by
  simp only [Option.eq_none_iff_forall_ne_some, Ne, Verb.ofLetter?_eq_some_iff]

theorem pieces_percent (c : Char) (rest : List Char) :
    pieces ('%' :: c :: rest) = .ofPercent c :: pieces rest := by
  rw [pieces]

theorem pieces_plain {c : Char} (hc : c ≠ '%') (rest : List Char) :
    pieces (c :: rest) = .literal [c] :: pieces rest := by
  rw [pieces]
  · rintro rfl
    exact absurd rfl hc
  · rintro _ _ rfl
    exact absurd rfl hc

/-- The formatter takes a segment off a template as it is written. -/
theorem Segment.Inner.pieces_append {s : Segment} (h : s.Inner) (rest : List Char) :
    pieces (s.spelling ++ rest) = s.piece :: pieces rest := by
  cases s with
  | plain c => exact pieces_plain h rest
  | percent => exact pieces_percent '%' rest
  | verb v =>
    refine (pieces_percent v.letter rest).trans ?_
    rw [Piece.ofPercent, Verb.ofLetter?_eq_some_iff.2 rfl]
    rfl
  | unknown c =>
    refine (pieces_percent c rest).trans ?_
    rw [Piece.ofPercent, Verb.ofLetter?_eq_none_iff.2 h.2]
    simp only [if_neg h.1]
    rfl
  | dangling => exact h.elim

theorem Template.pieces_eq {cs : List Char} {segments : List Segment} (h : Template cs segments) :
    pieces cs = segments.map Segment.piece := by
  induction h with
  | nil | dangling => rfl
  | cons hs _ ih => rw [hs.pieces_append, ih, List.map_cons]

theorem exists_template (cs : List Char) : ∃ segments, Template cs segments := by
  fun_induction pieces cs with
  | case1 => exact ⟨[], .nil⟩
  | case2 => exact ⟨[.dangling], .dangling⟩
  | case3 c rest ih =>
    obtain ⟨segments, hsegments⟩ := ih
    by_cases hpercent : c = '%'
    · subst hpercent
      exact ⟨_, .cons (s := .percent) trivial hsegments⟩
    · cases hverb : Verb.ofLetter? c with
      | some v =>
        obtain rfl := Verb.ofLetter?_eq_some_iff.1 hverb
        exact ⟨_, .cons (s := .verb v) trivial hsegments⟩
      | none =>
        have hunknown := Verb.ofLetter?_eq_none_iff.1 hverb
        exact ⟨_, .cons (s := .unknown c) ⟨hpercent, hunknown⟩ hsegments⟩
  | case4 c rest hdangling hpercent ih =>
    obtain ⟨segments, hsegments⟩ := ih
    have hc : c ≠ '%' := by
      rintro rfl
      cases rest with
      | nil => exact hdangling rfl rfl
      | cons d rest => exact hpercent d rest rfl rfl
    exact ⟨_, .cons (s := .plain c) hc hsegments⟩

theorem Verb.letter_inj {v v' : Verb} (h : v.letter = v'.letter) : v = v' :=
  Option.some.inj ((Verb.ofLetter?_eq_some_iff.2 rfl).symm.trans (Verb.ofLetter?_eq_some_iff.2 h))

theorem Verb.letter_ne_percent (v : Verb) : v.letter ≠ '%' := by
  cases v <;> decide

/-- The spelling of a segment says which one it is and where it ends. -/
theorem Segment.Inner.eq_of_append_eq {s s' : Segment} (h : s.Inner) (h' : s'.Inner)
    {rest rest' : List Char} (heq : s.spelling ++ rest = s'.spelling ++ rest') :
    s = s' ∧ rest = rest' := by
  cases s <;> cases s' <;> grind [Inner, spelling, Verb.letter_inj, Verb.letter_ne_percent]

/-- A percent sign at the end begins no other segment. -/
theorem Segment.Inner.append_ne_percent {s : Segment} (h : s.Inner) (rest : List Char) :
    s.spelling ++ rest ≠ ['%'] := by
  cases s <;> grind [Inner, spelling]

theorem Segment.append_ne_nil (s : Segment) (rest : List Char) :
    s.spelling ++ rest ≠ [] := by
  cases s <;> grind [spelling]

theorem Template.unique {cs : List Char} {segments segments' : List Segment}
    (h : Template cs segments) (h' : Template cs segments') : segments = segments' := by
  induction h generalizing segments' with
  | nil =>
    generalize hcs : ([] : List Char) = cs at h'
    cases h' with
    | nil => rfl
    | dangling => cases hcs
    | cons => exact absurd hcs.symm (Segment.append_ne_nil _ _)
  | dangling =>
    generalize hcs : ['%'] = cs at h'
    cases h' with
    | nil => cases hcs
    | dangling => rfl
    | cons hs => exact absurd hcs.symm (hs.append_ne_percent _)
  | @cons s rest segments hs _ ih =>
    generalize hcs : s.spelling ++ rest = cs at h'
    cases h' with
    | nil => exact absurd hcs (Segment.append_ne_nil _ _)
    | dangling => exact absurd hcs (hs.append_ne_percent _)
    | cons hs' hrest' =>
      obtain ⟨rfl, rfl⟩ := hs.eq_of_append_eq hs' hcs
      rw [ih hrest']

theorem Template.append {cs cs' : List Char} {segments segments' : List Segment}
    (h : Template cs segments) (hdangling : .dangling ∉ segments) (h' : Template cs' segments') :
    Template (cs ++ cs') (segments ++ segments') := by
  induction h with
  | nil => exact h'
  | dangling => exact absurd (List.mem_singleton_self _) hdangling
  | cons hs _ ih =>
    rw [List.append_assoc]
    exact .cons hs (ih fun hmem => hdangling (List.mem_cons_of_mem _ hmem))

/-! ## Showing templates -/

/-- The values that a verb shows as they are. -/
def Verb.Takes : Verb → Value → Prop
  | .value, _ => True
  | .decimal, .int _ | .decimal, .uint _ => True
  | .string, .str _ => True
  | .truth, .bool _ => True
  | _, _ => False

theorem Verb.fits_iff_takes {v : Verb} {value : Value} :
    v.fits value.kind = true ↔ v.Takes value := by
  cases v <;> cases value <;> simp [Verb.fits, Verb.Takes, Value.kind]

instance (v : Verb) (value : Value) : Decidable (v.Takes value) :=
  decidable_of_iff (v.fits value.kind = true) Verb.fits_iff_takes

/-- What a segment shows that has `index` verbs before it. -/
def Segment.render (args : List Value) (index : Nat) : Segment → String
  | .plain c => .ofList [c]
  | .percent | .dangling => "%"
  | .unknown c => .ofList ['%', c]
  | .verb v =>
    match args[index]? with
    | none => "%!" ++ v.letter.toString ++ "(MISSING)"
    | some value =>
      if v.Takes value then value.display
      else "%!" ++ v.letter.toString ++ "(" ++ value.kind.label ++ "=" ++ value.display ++ ")"

/-- What the segments of a template show. -/
def rendering (args : List Value) (segments : List Segment) : String :=
  .join (segments.mapIdx fun i s => s.render args (verbCount (segments.take i)))

/-- The note about the arguments that are left over. -/
def surplus (args : List Value) : String :=
  "%!(EXTRA " ++ ", ".intercalate (args.map fun value => value.kind.label ++ "=" ++ value.display)
    ++ ")"

theorem verbCount_cons (s : Segment) (segments : List Segment) :
    verbCount (s :: segments) = s.isVerb.toNat + verbCount segments := by
  unfold verbCount
  rw [List.countP_cons, Nat.add_comm]
  cases s.isVerb <;> rfl

theorem extra_drop (args : List Value) (k : Nat) :
    extra (args.drop k) = if k < args.length then surplus (args.drop k) else "" := by
  split
  case isTrue hlt =>
    rw [List.drop_eq_getElem_cons hlt]
    rfl
  case isFalse hle =>
    rw [List.drop_eq_nil_of_le (Nat.le_of_not_lt hle)]
    rfl

theorem Verb.render_eq (v : Verb) (value : Value) :
    v.render value = if v.Takes value then value.display
      else "%!" ++ v.letter.toString ++ "(" ++ value.kind.label ++ "=" ++ value.display ++ ")" := by
  unfold Verb.render labelled
  simp only [Verb.fits_iff_takes, String.append_assoc]

/-- A segment shows the argument at its index, if it shows one, and leaves those behind it. -/
theorem join_showPieces_cons (args : List Value) (index : Nat) (s : Segment) (rest : List Piece) :
    String.join (showPieces (s.piece :: rest) (args.drop index)) =
      s.render args index ++ .join (showPieces rest (args.drop (index + s.isVerb.toNat))) := by
  cases s with
  | plain | percent | unknown | dangling => exact String.join_cons
  | verb v =>
    change String.join (showPieces (.verb v :: rest) _) = _
    unfold Segment.render
    by_cases hlt : index < args.length
    · rw [List.drop_eq_getElem_cons hlt, List.getElem?_eq_getElem hlt, showPieces,
        String.join_cons, Verb.render_eq]
      rfl
    · have hle := Nat.le_of_not_lt hlt
      rw [List.drop_eq_nil_of_le hle, List.getElem?_eq_none hle, showPieces, String.join_cons,
        List.drop_eq_nil_of_le (by omega)]
      rfl

/-- Where the formatter is after some verbs, with the segments that are left. -/
theorem join_showPieces (args : List Value) (segments : List Segment) (index : Nat) :
    String.join (showPieces (segments.map Segment.piece) (args.drop index)) =
      .join (segments.mapIdx fun i s => s.render args (index + verbCount (segments.take i))) ++
        extra (args.drop (index + verbCount segments)) := by
  induction segments generalizing index with
  | nil => simp [showPieces, verbCount]
  | cons s segments ih =>
    rw [List.map_cons, join_showPieces_cons, ih, List.mapIdx_cons, String.join_cons,
      String.append_assoc]
    simp only [List.take_succ_cons, verbCount_cons, Nat.add_assoc]
    rfl

theorem Template.format_eq {template : String} {segments : List Segment}
    (h : Template template.toList segments) (args : List Value) :
    format template args = rendering args segments ++
      if verbCount segments < args.length then surplus (args.drop (verbCount segments))
      else "" := by
  have hshown := join_showPieces args segments 0
  rw [List.drop_zero, ← h.pieces_eq] at hshown
  simp only [Nat.zero_add] at hshown
  rw [← extra_drop]
  exact hshown

/-! ## Putting templates together -/

theorem join_showPieces_append {segments : List Segment} {args : List Value}
    (h : verbCount segments = args.length) (rest : List Piece) (args' : List Value) :
    String.join (showPieces (segments.map Segment.piece ++ rest) (args ++ args')) =
      .join (showPieces (segments.map Segment.piece) args) ++ .join (showPieces rest args') := by
  induction segments generalizing args with
  | nil =>
    obtain rfl := List.length_eq_zero_iff.1 h.symm
    rfl
  | cons s segments ih =>
    have hstep : ∀ {shown : String} {args : List Value}, verbCount segments = args.length →
        String.join (shown :: showPieces (segments.map Segment.piece ++ rest) (args ++ args')) =
          .join (shown :: showPieces (segments.map Segment.piece) args) ++
            .join (showPieces rest args') := by
      intro shown args hargs
      rw [String.join_cons, String.join_cons, ih hargs, String.append_assoc]
    rw [verbCount_cons] at h
    cases s with
    | verb v =>
      obtain ⟨arg, args, rfl⟩ :=
        List.exists_cons_of_length_eq_add_one (h.symm.trans (Nat.add_comm _ _))
      exact hstep (Nat.add_left_cancel (h.trans (Nat.add_comm _ _)))
    | plain | percent | unknown | dangling => exact hstep ((Nat.zero_add _).symm.trans h)

/-- A text with its percent signs doubled. -/
def doubled (text : String) : String :=
  .ofList (text.toList.flatMap fun c => if c = '%' then ['%', '%'] else [c])

theorem pieces_doubled (cs : List Char) :
    pieces (cs.flatMap fun c => if c = '%' then ['%', '%'] else [c]) =
      cs.map fun c => .literal [c] := by
  induction cs with
  | nil => rfl
  | cons c cs ih =>
    rw [List.flatMap_cons, List.map_cons]
    split
    case isTrue hc =>
      subst hc
      exact (pieces_percent '%' _).trans (congrArg _ ih)
    case isFalse hc => exact (pieces_plain hc _).trans (congrArg _ ih)

theorem format_doubled (text : String) : format (doubled text) [] = text := by
  have hshown : ∀ cs : List Char,
      String.join (showPieces (cs.map fun c => .literal [c]) []) = .ofList cs := by
    intro cs
    induction cs with
    | nil => rfl
    | cons c cs ih =>
      rw [List.map_cons, showPieces, String.join_cons, ih, ← String.ofList_append]
      rfl
  rw [format, doubled, String.toList_ofList, pieces_doubled, hshown, String.ofList_toList]

/-- Arguments are shown in order and each once.  A template can be taken apart in exactly one way,
and shows what its segments show, the verb with `i` verbs before it the argument at `i`, with a note
about the arguments that no verb is left for.  So a template that shows its own arguments and does
not end within a segment can be followed by another with arguments of its own, and a text with its
percent signs doubled shows as the text. -/
theorem templates_show_arguments_in_order :
    (∀ template : String, ∃! segments, Template template.toList segments) ∧
    (∀ (template : String) (segments : List Segment) (args : List Value),
      Template template.toList segments →
      format template args = rendering args segments ++
        if verbCount segments < args.length then surplus (args.drop (verbCount segments))
        else "") ∧
    (∀ (t₁ t₂ : String) (segments : List Segment) (a₁ a₂ : List Value),
      Template t₁.toList segments → .dangling ∉ segments → verbCount segments = a₁.length →
      format (t₁ ++ t₂) (a₁ ++ a₂) = format t₁ a₁ ++ format t₂ a₂) ∧
    ∀ text : String, format (doubled text) [] = text := by
  refine ⟨fun template => ?_, fun template segments args h => h.format_eq args,
    fun t₁ t₂ segments a₁ a₂ h hdangling hcount => ?_, format_doubled⟩
  · obtain ⟨segments, h⟩ := exists_template template.toList
    exact ⟨segments, h, fun segments' h' => h'.unique h⟩
  · obtain ⟨segments', h'⟩ := exists_template t₂.toList
    have happend := h.append hdangling h'
    rw [← String.toList_append] at happend
    unfold format
    rw [happend.pieces_eq, h.pieces_eq, List.map_append, ← h'.pieces_eq]
    exact join_showPieces_append hcount _ _

/-- The template `%d%%, %q%s`, which has a verb that is none. -/
def percentages : List Segment :=
  [.verb .decimal, .percent, .plain ',', .plain ' ', .unknown 'q', .verb .string]

theorem template_percentages : Template "%d%%, %q%s".toList percentages := by
  have hunknown : ∀ v : Verb, 'q' ≠ v.letter := by
    intro v
    cases v <;> decide
  have hword : Template "%q%s".toList [.unknown 'q', .verb .string] :=
    .cons (s := .unknown 'q') ⟨by decide, hunknown⟩ (.cons (s := .verb .string) trivial .nil)
  have hblank := Template.cons (s := .plain ' ') (by decide : ' ' ≠ '%') hword
  have hcomma := Template.cons (s := .plain ',') (by decide : ',' ≠ '%') hblank
  exact .cons (s := .verb .decimal) trivial (.cons (s := .percent) trivial hcomma)

/-- An argument may hold percent signs, and the text behind the template one that dangles. -/
theorem percentages_can_be_followed :
    format ("%d%%, %q%s" ++ "%t%") ([.int 5, .str "%d"] ++ [.bool true]) =
        "5%, %q%d" ++ "true%" ∧
      format "%d%%, %q%s" [.bool true, .str "x", .int 7] =
        "%!d(bool=true)%, %qx%!(EXTRA int=7)" := by
  obtain ⟨-, hshow, hfollow, -⟩ := templates_show_arguments_in_order
  constructor
  · rw [hfollow _ _ percentages _ _ template_percentages (by decide) rfl]
    decide
  · rw [hshow _ percentages _ template_percentages]
    decide

end HostLisp.Library
