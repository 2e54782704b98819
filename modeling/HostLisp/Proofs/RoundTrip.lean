import HostLisp.Node.Render
import HostLisp.Proofs.Grammar
import HostLisp.Proofs.Literals
import HostLisp.Proofs.Spelling

/-!
# Parsing undoes printing

A program that is written as text is read back as the same program.  The two halves of reading were
described apart from each other: what text the scanner reads as given lexemes (`Spelling`), and what
trees the parser can return (`Node.IsProgram`).  Here the parser is followed through the lexemes of
a tree.  `Parse.Leads` says that some lexemes take the parser from one state to another, whatever
their places in the source are, and the lexemes of an expression lead from the hole on top of the
stack to wherever the finished expression leads when it fills the hole (`Parse.reads_of_proper`).

So the trees that can be read are exactly the programs, and a program is read from every spelling of
its lexemes (`parse_spelling`), of which its printed text is one.
-/

namespace HostLisp

namespace Parse

variable {limit : Nat} {goal goal' goal'' : Goal} {holes holes' holes'' : List Hole}

/-! ## Following the parser -/

/-- Tokens with these lexemes take the parser from one state to another. -/
def Leads (limit : Nat) (goal : Goal) (holes : List Hole) (ls : List Lexeme) (goal' : Goal)
    (holes' : List Hole) : Prop :=
  ∀ ts rest, ts.map Token.lexeme = ls →
    run limit goal holes (ts ++ rest) = run limit goal' holes' rest

theorem Leads.refl : Leads limit goal holes [] goal holes := by
  intro ts rest hts
  rw [List.map_eq_nil_iff.1 hts]
  rfl

theorem Leads.trans {ls ls' : List Lexeme} (h : Leads limit goal holes ls goal' holes')
    (h' : Leads limit goal' holes' ls' goal'' holes'') :
    Leads limit goal holes (ls ++ ls') goal'' holes'' := by
  intro ts rest hts
  obtain ⟨xs, ys, rfl, hxs, hys⟩ := List.map_eq_append_iff.1 hts
  rw [List.append_assoc, h xs (ys ++ rest) hxs, h' ys rest hys]

/-- A token that is taken, and what the lexemes after it do.  Where it stands may show in the state
in between. -/
theorem Leads.cons {kind : TokenKind} {text : String} {ls : List Lexeme} (hkind : kind ≠ .error)
    (h : ∀ t : Token, t.kind = kind → t.text = text → ∃ mid midHoles,
      step limit goal holes t = .shift mid midHoles ∧ Leads limit mid midHoles ls goal' holes') :
    Leads limit goal holes (⟨kind, text⟩ :: ls) goal' holes' := by
  intro ts rest hts
  obtain ⟨t, xs, rfl, ht, hxs⟩ := List.map_eq_cons_iff.1 hts
  have htkind : t.kind = kind := congrArg Lexeme.kind ht
  obtain ⟨mid, midHoles, hstep, hmid⟩ := h t htkind (congrArg Lexeme.text ht)
  rw [List.cons_append, run, if_neg (htkind ▸ hkind), hstep]
  exact hmid xs rest hxs

theorem Leads.single {kind : TokenKind} {text : String} (hkind : kind ≠ .error)
    (h : ∀ t : Token, t.kind = kind → t.text = text →
      step limit goal holes t = .shift goal' holes') :
    Leads limit goal holes [⟨kind, text⟩] goal' holes' :=
  .cons hkind fun t ht ht' => ⟨goal', holes', h t ht ht', .refl⟩

/-! ## Single tokens -/

/-- An expression may stand in the hole on top, and is looked at as one. -/
def Open (limit : Nat) (holes : List Hole) : Prop :=
  depth holes < limit ∧ ∀ line params below, holes ≠ .body line params :: below

theorem step_operand {t : Token} (h : Open limit holes) (heof : t.kind ≠ .eof)
    (hclose : t.kind ≠ .rightParen) :
    step limit .operand holes t
      = if t.kind = .leftParen then .shift .head holes else fillWith (leaf t) holes := by
  have hexpression : expressionStep limit holes t
      = if t.kind = .leftParen then .shift .head holes else fillWith (leaf t) holes := by
    rw [expressionStep, if_neg (Nat.not_le.2 h.1)]
  rw [← hexpression]
  change operandStep limit holes t = _
  unfold operandStep
  split
  case h_1 => rw [if_neg heof]
  case h_2 => rw [if_neg hclose, if_neg heof]
  case h_3 line params below => exact absurd rfl (h.2 line params below)
  case h_4 => rfl

theorem leads_opening (h : Open limit holes) :
    Leads limit .operand holes [.opening] .head holes := by
  refine .single (by simp) fun t hkind _ => ?_
  rw [step_operand h (by simp [hkind]) (by simp [hkind]), if_pos hkind]

theorem leads_closing {context : String} {node : Node}
    (hfill : fill node holes = .shift goal' holes') :
    Leads limit (.close context node) holes [.closing] goal' holes' := by
  refine .single (by simp) fun t hkind _ => ?_
  simp [step, hkind, hfill]

/-- An expression that is one token. -/
theorem leads_leaf {kind : TokenKind} {text : String} {node : Node} (h : Open limit holes)
    (hkinds : kind ≠ .error ∧ kind ≠ .eof ∧ kind ≠ .rightParen ∧ kind ≠ .leftParen)
    (hleaf : ∀ t : Token, t.kind = kind → t.text = text → leaf t = .ok node)
    (hfill : fill node holes = .shift goal' holes') :
    Leads limit .operand holes [⟨kind, text⟩] goal' holes' := by
  obtain ⟨herror, heof, hclose, hopen⟩ := hkinds
  refine .single herror fun t hkind htext => ?_
  rw [step_operand h (hkind ▸ heof) (hkind ▸ hclose), if_neg (hkind ▸ hopen), hleaf t hkind htext]
  exact hfill

/-! ## Forms -/

/-- What is known of an expression by induction: its lexemes lead on to where it fills a hole. -/
def Reads (limit : Nat) (node : Node) : Prop :=
  ∀ {holes goal' holes'}, depth holes + node.nesting ≤ limit →
    (∀ line params below, holes ≠ .body line params :: below) →
    fill node holes = .shift goal' holes' →
    Leads limit .operand holes node.lexemes goal' holes'

/-- Expressions one after the other, in a form that takes any number of them. -/
theorem leads_items (hole : List Node → Hole) {level : Nat}
    (hdepth : ∀ done, depth (hole done :: holes) = level)
    (hbody : ∀ done line params, hole done ≠ .body line params)
    (hfill : ∀ node done,
      fill node (hole done :: holes) = .shift .operand (hole (node :: done) :: holes))
    {nodes : List Node} (hnodes : ∀ e ∈ nodes, Reads limit e ∧ level + e.nesting ≤ limit)
    (done : List Node) :
    Leads limit .operand (hole done :: holes) (Node.lexemesAll nodes) .operand
      (hole (nodes.reverse ++ done) :: holes) := by
  induction nodes generalizing done with
  | nil => exact .refl
  | cons node rest ih =>
    obtain ⟨hreads, hlevel⟩ := hnodes node (by simp)
    have hnode : Leads limit .operand (hole done :: holes) node.lexemes .operand
        (hole (node :: done) :: holes) := by
      refine hreads (hdepth done ▸ hlevel) (fun line params below heq => ?_) (hfill node done)
      exact hbody done line params (List.cons.inj heq).1
    have hrest := ih (fun e he => hnodes e (by simp [he])) (node :: done)
    rw [List.reverse_cons, List.append_assoc]
    exact hnode.trans hrest

/-- A block from behind its first word on. -/
theorem leads_block {block : Block} {nodes : List Node} {node : Node}
    (hnodes : ∀ e ∈ nodes, Reads limit e ∧ depth holes + 1 + e.nesting ≤ limit)
    (hblock : block.node nodes = .ok node) (hfill : fill node holes = .shift goal' holes') :
    Leads limit .operand (.item block [] :: holes) (Node.lexemesAll nodes ++ [.closing]) goal'
      holes' := by
  have hdepth : ∀ done, depth (.item block done :: holes) = depth holes + 1 := by
    intro done
    simp [Hole.isLevel]
  have hitems := leads_items (.item block) hdepth (fun done line params => by simp)
    (fun node done => rfl) hnodes []
  refine hitems.trans (.single (by simp) fun t hkind _ => ?_)
  simp [step, operandStep, hkind, hblock, fillWith, hfill]

/-- A call from its name on.  The hole on top may be the body of a `lambda`. -/
theorem leads_call {name : String} {args : List Node} (hname : CallName name)
    (hargs : ∀ e ∈ args, Reads limit e ∧ depth holes + 1 + e.nesting ≤ limit)
    (hfill : fill (.call name args) holes = .shift goal' holes') :
    Leads limit .head holes (⟨.call, name⟩ :: Node.lexemesAll args ++ [.closing]) goal' holes' := by
  refine .cons (by simp) fun t hkind htext =>
    ⟨.operand, .item (.call name) [] :: holes, ?_, leads_block hargs rfl hfill⟩
  subst htext
  have hreserved := hname.2
  simp only [List.mem_cons, List.not_mem_nil, or_false, not_or] at hreserved
  simp only [step, headStep, hkind]
  split <;> simp_all

/-- A definition or an assignment from the name that it binds on. -/
theorem leads_binder (binder : Binder) {name : String} {value : Node} (hvalue : Reads limit value)
    (hlevel : depth holes + 1 + value.nesting ≤ limit)
    (hfill : fill (binder.node name value) holes = .shift goal' holes') :
    Leads limit (.target binder) holes (⟨.word, name⟩ :: value.lexemes ++ [.closing]) goal'
      holes' := by
  have hlexemes : Leads limit .operand (.value binder name :: holes) value.lexemes
      (.close binder.label (binder.node name value)) holes :=
    hvalue (by simpa [Hole.isLevel] using hlevel) (by simp) rfl
  refine .cons (by simp) fun t hkind htext =>
    ⟨.operand, .value binder name :: holes, ?_, hlexemes.trans (leads_closing hfill)⟩
  simp [step, hkind, htext]

/-- The parts of a condition. -/
theorem leads_cond {test conseq alt : Node} (htest : Reads limit test)
    (hconseq : Reads limit conseq) (halt : Reads limit alt)
    (htestLevel : depth holes + 1 + test.nesting ≤ limit)
    (hconseqLevel : depth holes + 1 + conseq.nesting ≤ limit)
    (haltLevel : depth holes + 1 + alt.nesting ≤ limit)
    (hfill : fill (.cond test conseq alt) holes = .shift goal' holes') :
    Leads limit .operand (.test :: holes)
      (test.lexemes ++ conseq.lexemes ++ alt.lexemes ++ [.closing]) goal' holes' := by
  have h₁ : Leads limit .operand (.test :: holes) test.lexemes .operand (.conseq test :: holes) :=
    htest (by simpa [Hole.isLevel] using htestLevel) (by simp) rfl
  have h₂ : Leads limit .operand (.conseq test :: holes) conseq.lexemes .operand
      (.alt test conseq :: holes) :=
    hconseq (by simpa [Hole.isLevel] using hconseqLevel) (by simp) rfl
  have h₃ : Leads limit .operand (.alt test conseq :: holes) alt.lexemes
      (.close "if" (.cond test conseq alt)) holes :=
    halt (by simpa [Hole.isLevel] using haltLevel) (by simp) rfl
  exact ((h₁.trans h₂).trans h₃).trans (leads_closing hfill)

/-- The parameters after the first. -/
theorem leads_params {line : Nat} {names rest : List String} :
    Leads limit (.params line names) holes (rest.map (⟨.word, ·⟩))
      (.params line (rest.reverse ++ names)) holes := by
  induction rest generalizing names with
  | nil => exact .refl
  | cons name rest ih =>
    rw [List.reverse_cons, List.append_assoc]
    refine .cons (by simp) fun t hkind htext => ⟨.params line (name :: names), holes, ?_, ih⟩
    simp [step, hkind, htext]

/-- A `lambda` from its parameters on, whose body is a call in the place that takes no other
expression. -/
theorem leads_lambda (line : Nat) {params : List String} {name : String} {args : List Node}
    (hparams : ParamNames params) (hname : CallName name)
    (hargs : ∀ e ∈ args, Reads limit e ∧ depth holes + 1 + e.nesting ≤ limit)
    (hfill : fill (.lambda params name args) holes = .shift goal' holes') :
    Leads limit (.paramsOpen line) holes
      (.opening :: Lexeme.ofParams params ++ .closing :: .opening :: ⟨.call, name⟩
        :: Node.lexemesAll args ++ [.closing, .closing]) goal' holes' := by
  match params, hparams with
  | first :: rest, _ =>
    have hopening : Leads limit (.paramsOpen line) holes [.opening] (.params line []) holes := by
      refine .single (by simp) fun t hkind _ => ?_
      simp [step, hkind]
    have hfirst : Leads limit (.params line []) holes [⟨.call, first⟩] (.params line [first])
        holes := by
      refine .single (by simp) fun t hkind htext => ?_
      simp [step, hkind, htext]
    have hclosing : Leads limit (.params line (rest.reverse ++ [first])) holes [.closing] .operand
        (.body line (first :: rest) :: holes) := by
      refine .single (by simp) fun t hkind _ => ?_
      simp [step, hkind]
    have hbody : Leads limit .operand (.body line (first :: rest) :: holes) [.opening] .head
        (.body line (first :: rest) :: holes) := by
      refine .single (by simp) fun t hkind _ => ?_
      simp [step, operandStep, hkind]
    have hcall : Leads limit .head (.body line (first :: rest) :: holes)
        (⟨.call, name⟩ :: Node.lexemesAll args ++ [.closing])
        (.close "lambda" (.lambda (first :: rest) name args)) holes :=
      leads_call hname (by simpa [Hole.isLevel] using hargs) rfl
    have hall := ((((hopening.trans hfirst).trans leads_params).trans hclosing).trans hbody).trans
      (hcall.trans (leads_closing hfill))
    simpa [Lexeme.ofParams] using hall

theorem Block.node_begin {body : List Node} (h : body ≠ []) (line : Nat) :
    (Block.begin line).node body = .ok (.begin body) := by
  cases body with
  | nil => exact absurd rfl h
  | cons e rest => rfl

theorem nesting_of_mem {nodes : List Node} {level : Nat}
    (h : level + (Node.deepest nodes + 1) ≤ limit) {e : Node} (he : e ∈ nodes) :
    level + 1 + e.nesting ≤ limit := by
  have hdeepest := Node.deepest_le_iff.1 (Nat.le_refl _) e he
  omega

/-- The lexemes of an expression lead to where the expression fills the hole on top.  Each form is
followed from its opening parenthesis and its first word on. -/
theorem reads_of_proper {node : Node} (h : node.Proper) : Reads limit node := by
  induction h with
  | call hname _ ih =>
    intro holes goal' holes' hdepth hbody hfill
    simp only [Node.nesting] at hdepth
    have hform := leads_call hname (fun e he => ⟨ih e he, nesting_of_mem hdepth he⟩) hfill
    have hlexemes := (leads_opening ⟨by omega, hbody⟩).trans hform
    simpa [Node.lexemes] using hlexemes
  | define _ _ ih =>
    intro holes goal' holes' hdepth hbody hfill
    simp only [Node.nesting] at hdepth
    have hform := leads_binder .define ih (by omega) hfill
    have hhead : Leads limit .head holes [⟨.define, "define"⟩] (.target .define) holes := by
      refine .single (by simp) fun t hkind _ => ?_
      simp [step, headStep, hkind]
    have hlexemes := ((leads_opening ⟨by omega, hbody⟩).trans hhead).trans hform
    simpa [Node.lexemes] using hlexemes
  | assign _ _ ih =>
    intro holes goal' holes' hdepth hbody hfill
    simp only [Node.nesting] at hdepth
    have hform := leads_binder .assign ih (by omega) hfill
    have hhead : Leads limit .head holes [⟨.call, "set"⟩] (.target .assign) holes := by
      refine .single (by simp) fun t hkind htext => ?_
      simp [step, headStep, hkind, htext]
    have hlexemes := ((leads_opening ⟨by omega, hbody⟩).trans hhead).trans hform
    simpa [Node.lexemes] using hlexemes
  | cond _ _ _ ihtest ihconseq ihalt =>
    intro holes goal' holes' hdepth hbody hfill
    simp only [Node.nesting] at hdepth
    have hform := leads_cond ihtest ihconseq ihalt (by omega) (by omega) (by omega) hfill
    have hhead : Leads limit .head holes [⟨.call, "if"⟩] .operand (.test :: holes) := by
      refine .single (by simp) fun t hkind htext => ?_
      simp [step, headStep, hkind, htext]
    have hlexemes := ((leads_opening ⟨by omega, hbody⟩).trans hhead).trans hform
    simpa [Node.lexemes] using hlexemes
  | @begin body hne _ ih =>
    intro holes goal' holes' hdepth hbody hfill
    simp only [Node.nesting] at hdepth
    have hform : Leads limit .head holes
        (⟨.call, "begin"⟩ :: (Node.lexemesAll body ++ [.closing])) goal' holes' := by
      refine .cons (by simp) fun t hkind htext =>
        ⟨.operand, .item (.begin t.line) [] :: holes, ?_, ?_⟩
      · simp [step, headStep, hkind, htext]
      · exact leads_block (fun e he => ⟨ih e he, nesting_of_mem hdepth he⟩)
          (Block.node_begin hne t.line) hfill
    have hlexemes := (leads_opening ⟨by omega, hbody⟩).trans hform
    simpa [Node.lexemes] using hlexemes
  | @lambda params name args hparams hname _ ih =>
    intro holes goal' holes' hdepth hbody hfill
    simp only [Node.nesting] at hdepth
    have hform : Leads limit .head holes (⟨.call, "lambda"⟩ :: (.opening :: Lexeme.ofParams params
        ++ .closing :: .opening :: ⟨.call, name⟩ :: Node.lexemesAll args ++ [.closing, .closing]))
        goal' holes' := by
      refine .cons (by simp) fun t hkind htext => ⟨.paramsOpen t.line, holes, ?_, ?_⟩
      · simp [step, headStep, hkind, htext]
      · exact leads_lambda t.line hparams hname
          (fun e he => ⟨ih e he, nesting_of_mem hdepth he⟩) hfill
    have hlexemes := (leads_opening ⟨by omega, hbody⟩).trans hform
    simpa [Node.lexemes] using hlexemes
  | var _ =>
    intro holes goal' holes' hdepth hbody hfill
    refine leads_leaf ⟨hdepth, hbody⟩ (by simp) (fun t hkind htext => ?_) hfill
    simp [leaf, hkind, htext]
  | number hvalue =>
    intro holes goal' holes' hdepth hbody hfill
    refine leads_leaf ⟨hdepth, hbody⟩ (by simp) (fun t hkind htext => ?_) hfill
    simp [leaf, hkind, htext, NumberLiteral.ofText?, hvalue]
  | str =>
    intro holes goal' holes' hdepth hbody hfill
    refine leads_leaf ⟨hdepth, hbody⟩ (by simp) (fun t hkind htext => ?_) hfill
    simp [leaf, hkind, htext, Quoted.decode_encode]
  | @bool value =>
    intro holes goal' holes' hdepth hbody hfill
    refine leads_leaf ⟨hdepth, hbody⟩ (by simp) (fun t hkind htext => ?_) hfill
    cases value <;> simp_all [leaf]

end Parse

/-! ## The lexemes of a tree -/

theorem Fitting.append {b b' b'' : Bool} {ls ls' : List Lexeme} (h : Fitting b ls b')
    (h' : Fitting b' ls' b'') : Fitting b (ls ++ ls') b'' := by
  induction ls generalizing b with
  | nil => exact (show b = b' from h) ▸ h'
  | cons l ls ih => exact ⟨h.1, ih h.2⟩

theorem fitting_lexemesAll {nodes : List Node} (h : ∀ e ∈ nodes, Fitting false e.lexemes false) :
    Fitting false (Node.lexemesAll nodes) false := by
  induction nodes with
  | nil => rfl
  | cons node rest ih => exact (h node (by simp)).append (ih fun e he => h e (by simp [he]))

theorem fitting_opening : Fitting false [.opening] true := ⟨.opening, rfl⟩

theorem fitting_closing : Fitting false [.closing] false := ⟨.closing, rfl⟩

/-- The first word of a form, and what stands in the form. -/
theorem fitting_form {l : Lexeme} {ls : List Lexeme} (hl : l.Fits true) (hopens : l.opens = false)
    (h : Fitting false ls false) : Fitting false (.opening :: l :: ls ++ [.closing]) false := by
  refine ⟨.opening, hl, ?_⟩
  rw [hopens]
  exact h.append fitting_closing

theorem fitting_params {params : List String} (h : ParamNames params) :
    Fitting true (Lexeme.ofParams params) false := by
  match params, h with
  | first :: rest, ⟨hfirst, hrest⟩ =>
    refine ⟨.call hfirst, ?_⟩
    clear hfirst
    induction rest with
    | nil => rfl
    | cons name rest ih =>
      exact ⟨.word (hrest name (by simp)), ih fun other hother => hrest other (by simp [hother])⟩

/-- A proper expression is written with lexemes that fit. -/
theorem Node.Proper.fitting {node : Node} (h : node.Proper) : Fitting false node.lexemes false := by
  have hreserved : ∀ text ∈ ["set", "if", "begin", "lambda"], CallWord text.toList := by
    intro text htext
    simp only [List.mem_cons, List.not_mem_nil, or_false] at htext
    rcases htext with rfl | rfl | rfl | rfl <;> exact ⟨by decide, by decide, by decide, by decide⟩
  induction h with
  | call hname _ ih => exact fitting_form (.call hname.1) rfl (fitting_lexemesAll ih)
  | define hname _ ih => exact fitting_form .define rfl ⟨.word hname, ih⟩
  | assign hname _ ih =>
    exact fitting_form (.call (hreserved "set" (by simp))) rfl ⟨.word hname, ih⟩
  | cond _ _ _ ihtest ihconseq ihalt =>
    have hparts := (ihtest.append ihconseq).append ihalt
    have hform := fitting_form (.call (hreserved "if" (by simp))) rfl hparts
    simpa [Node.lexemes] using hform
  | begin _ _ ih =>
    exact fitting_form (.call (hreserved "begin" (by simp))) rfl (fitting_lexemesAll ih)
  | var hname => exact ⟨.word hname, rfl⟩
  | number hvalue => exact ⟨.number (numberText_of_integerLiteral? hvalue), rfl⟩
  | str => exact ⟨.string (Quoted.stringText_encode _), rfl⟩
  | @bool value =>
    refine ⟨.bool ?_, rfl⟩
    cases value <;> exact ⟨by decide, rfl⟩
  | lambda hparams hname _ ih =>
    have hcall := fitting_form (.call hname.1) rfl (fitting_lexemesAll ih)
    have hparts := ((fitting_opening.append (fitting_params hparams)).append fitting_closing).append
      hcall
    have hform := fitting_form (.call (hreserved "lambda" (by simp))) rfl hparts
    simpa [Node.lexemes] using hform

/-- The last lexeme of a tree is not the first word of a form. -/
theorem Node.Proper.getLast?_lexemes {node : Node} (h : node.Proper) {l : Lexeme}
    (hl : node.lexemes.getLast? = some l) : l.kind ≠ .call := by
  cases h with
  | var | number | str | bool =>
    cases hl
    simp
  | call | define | assign | cond | begin | lambda =>
    obtain rfl : .closing = l := by simpa [Node.lexemes, List.getLast?_cons] using hl
    simp [Lexeme.closing]

theorem getLast?_lexemesAll {nodes : List Node} (h : ∀ e ∈ nodes, e.Proper) {l : Lexeme}
    (hl : (Node.lexemesAll nodes).getLast? = some l) : l.kind ≠ .call := by
  induction nodes with
  | nil => cases hl
  | cons node rest ih =>
    rw [Node.lexemesAll, List.getLast?_append] at hl
    rcases Option.or_eq_some_iff.1 hl with hl | ⟨-, hl⟩
    · exact ih (fun e he => h e (by simp [he])) hl
    · exact (h node (by simp)).getLast?_lexemes hl

/-- Lexemes with single blanks between them. -/
theorem spelling_intercalate {ls : List Lexeme} (h : ∀ l, ls.getLast? = some l → l.kind ≠ .call) :
    Spelling ls ([' '].intercalate (ls.map (·.text.toList))) := by
  match ls, h with
  | [], _ => exact .nil
  | [l], h =>
    have hlexeme := Spelling.lexeme (fun c hc => by cases hc) (fun _ => h l rfl) .nil
    simpa using hlexeme
  | l :: l' :: ls, h =>
    have hrest : Spelling (l' :: ls) _ := spelling_intercalate h
    have hblank := Spelling.blank (show Text.isBlank ' ' = true from rfl) hrest
    have hlexeme := Spelling.lexeme (l := l) (fun c hc => by cases hc; rfl) (by simp) hblank
    simpa using hlexeme

theorem Node.spelling_render {children : List Node} (h : ∀ e ∈ children, e.Proper) :
    Spelling (Node.list children).lexemes (Node.list children).render.toList := by
  have hspelling := spelling_intercalate fun l => getLast?_lexemesAll h
  unfold Node.render
  rw [String.toList_intercalate, List.map_map]
  exact hspelling

/-! ## Whole programs -/

/-- A program is read from a source with the program's lexemes. -/
theorem parse_of_lexemes {t : Node} (h : t.IsProgram Parse.maxNesting) {source : String}
    (htokens : (tokenize source).map Token.lexeme = t.lexemes ++ [⟨.eof, ""⟩]) :
    parse source = .ok t := by
  cases t with
  | list children =>
    obtain ⟨ts, last, htokenize, hts, hlast⟩ := List.map_eq_append_iff.1 htokens
    obtain ⟨eof, rfl, heof⟩ := List.map_eq_singleton_iff.1 hlast
    have hkind : eof.kind = .eof := congrArg Lexeme.kind heof
    have hdepth : ∀ done, Parse.depth [.program done] = 0 := fun _ => rfl
    have hchildren : ∀ e ∈ children,
        Parse.Reads Parse.maxNesting e ∧ 0 + e.nesting ≤ Parse.maxNesting := by
      intro e he
      exact ⟨Parse.reads_of_proper (h e he).1, by simpa using (h e he).2⟩
    have hitems := Parse.leads_items .program hdepth (fun done line params => by simp)
      (fun node done => rfl) hchildren []
    have hrun := hitems ts [eof] hts
    unfold parse Parse.program
    rw [htokenize, hrun]
    simp only [Parse.run, Parse.step, Parse.operandStep, hkind, if_true, if_false, reduceCtorEq,
      List.append_nil, List.reverse_reverse]
    rfl
  | _ => exact h.elim

/-- A program is read from every spelling of its lexemes. -/
theorem parse_spelling {t : Node} (h : t.IsProgram Parse.maxNesting) {source : String}
    (hsource : Spelling t.lexemes source.toList) : parse source = .ok t := by
  cases t with
  | list children =>
    have hfits : Fitting false (Node.lexemesAll children) false :=
      fitting_lexemesAll fun e he => (h e he).1.fitting
    exact parse_of_lexemes h (scan_spelling hsource hfits .origin)
  | _ => exact h.elim

/-- **Parsing undoes printing.** What a source parses to is a program, and every program is what its
printed text parses to. -/
theorem parse_inverts_render :
    (∀ source t, parse source = .ok t → t.IsProgram Parse.maxNesting) ∧
    (∀ t : Node, t.IsProgram Parse.maxNesting → parse t.render = .ok t) := by
  refine ⟨fun source t h => parse_sound h, fun t h => ?_⟩
  cases t with
  | list children => exact parse_spelling h (Node.spelling_render fun e he => (h e he).1)
  | _ => exact h.elim

/-- A program with every form, and with names that can stand only where they do: a parameter that
begins like a number, a function named like a string, a variable that is a sign. -/
def Node.varied : Node :=
  .list
    [.define "-" (.lambda ["1st", "-"] "'(" [.var "-", .number ⟨"-0x10", -16⟩]),
     .cond (.bool true) (.begin [.assign "define" (.str "\\\""), .call "-1" []]) (.var "+x#")]

theorem varied_read_back :
    Node.varied.IsProgram Parse.maxNesting ∧ parse Node.varied.render = .ok Node.varied := by
  have hprogram : Node.varied.IsProgram Parse.maxNesting := by
    have hdefine : (Node.define "-" (.lambda ["1st", "-"] "'("
        [.var "-", .number ⟨"-0x10", -16⟩])).Proper := by
      refine .define (by decide) (.lambda (by decide) (by decide) ?_)
      simp only [List.forall_mem_cons]
      exact ⟨.var (by decide), .number (by decide), by simp⟩
    have hcond : (Node.cond (.bool true)
        (.begin [.assign "define" (.str "\\\""), .call "-1" []]) (.var "+x#")).Proper := by
      refine .cond .bool (.begin (by simp) ?_) (.var (by decide))
      simp only [List.forall_mem_cons]
      exact ⟨.assign (by decide) .str, .call (by decide) (by simp), by simp⟩
    simp only [Node.varied, Node.IsProgram, List.forall_mem_cons]
    exact ⟨⟨hdefine, by decide⟩, ⟨hcond, by decide⟩, by simp⟩
  exact ⟨hprogram, parse_inverts_render.2 Node.varied hprogram⟩

end HostLisp
