import HostLisp.Proofs.Grammar

/-!
# Derivations

The grammar of programs, as a relation between tokens and the node that they are read as.  It asks
nothing of the tokens but their kinds and texts, so it speaks of any token list, whether a source
has such tokens or not.

An expression is a single token or a form in parentheses, and a form is known by its first word
(`Derives`).  A program is expressions up to the first end of the source (`DerivesProgram`).  The
grammar says nothing about nesting; how deep a derived tree goes is its `Node.nesting`.

The parser decides the grammar.  What it accepts has a derivation, because at each moment the tokens
that were read are those of the open forms and of the form at hand (`Parse.ReadFrom`), which one
token keeps up (`Parse.step_traces`).  What has a derivation is accepted unless it is nested too
deep, and then that is the error.  Both cases are carried by one relation, `Parse.Follows`, which
composes: tokens lead from one state of the parser to another if they fit below the limit, and are
refused for their depth if not.
-/

namespace HostLisp

/-! ## The grammar -/

/-- Some tokens in parentheses. -/
inductive Bracketed (inner : List Token) : List Token → Prop where
  | mk {opening closing : Token} :
    opening.kind = .leftParen → closing.kind = .rightParen →
      Bracketed inner (opening :: inner ++ [closing])

/-- The first word of a special form, other than a definition. -/
structure Token.IsHead (t : Token) (text : String) : Prop where
  kind : t.kind = .call
  text : t.text = text

/-- The first word of a call: any that begins no special form. -/
structure Token.IsCallee (t : Token) : Prop where
  kind : t.kind = .call
  other : t.text ∉ ["set", "if", "begin", "lambda"]

/-- A parameter of a `lambda`. -/
def Token.IsParam (t : Token) : Prop := t.kind = .call ∨ t.kind = .word

/-- The tokens that an expression is read from.  Where a form holds any number of expressions, each
part is the tokens of one of them and what they are read as. -/
inductive Derives : List Token → Node → Prop where
  | number {t : Token} {literal : NumberLiteral} :
    t.kind = .number → NumberLiteral.ofText? t.text = some literal → Derives [t] (.number literal)
  | string {t : Token} {text : String} :
    t.kind = .string → Quoted.decode t.text = .ok text → Derives [t] (.str text)
  | bool {t : Token} {value : Bool} :
    t.kind = .bool → t.text = (if value then "#t" else "#f") → Derives [t] (.bool value)
  | var {t : Token} : t.kind = .word → Derives [t] (.var t.text)
  | define {head name : Token} {inner ts : List Token} {value : Node} :
    head.kind = .define → name.kind = .word → Derives inner value →
      Bracketed (head :: name :: inner) ts → Derives ts (.define name.text value)
  | assign {head name : Token} {inner ts : List Token} {value : Node} :
    head.IsHead "set" → name.kind = .word → Derives inner value →
      Bracketed (head :: name :: inner) ts → Derives ts (.assign name.text value)
  | cond {head : Token} {ts₁ ts₂ ts₃ ts : List Token} {test conseq alt : Node} :
    head.IsHead "if" → Derives ts₁ test → Derives ts₂ conseq → Derives ts₃ alt →
      Bracketed (head :: (ts₁ ++ ts₂ ++ ts₃)) ts → Derives ts (.cond test conseq alt)
  | begin {head : Token} {parts : List (List Token × Node)} {ts : List Token} :
    head.IsHead "begin" → parts ≠ [] → (∀ p ∈ parts, Derives p.1 p.2) →
      Bracketed (head :: parts.flatMap (·.1)) ts → Derives ts (.begin (parts.map (·.2)))
  | call {head : Token} {parts : List (List Token × Node)} {ts : List Token} :
    head.IsCallee → (∀ p ∈ parts, Derives p.1 p.2) →
      Bracketed (head :: parts.flatMap (·.1)) ts → Derives ts (.call head.text (parts.map (·.2)))
  | lambda {head callee : Token} {params ps body ts : List Token}
      {parts : List (List Token × Node)} :
    head.IsHead "lambda" → (∀ t ∈ params, t.IsParam) → Bracketed params ps →
      callee.IsCallee → (∀ p ∈ parts, Derives p.1 p.2) →
      Bracketed (callee :: parts.flatMap (·.1)) body → Bracketed (head :: (ps ++ body)) ts →
      Derives ts (.lambda (params.map (·.text)) callee.text (parts.map (·.2)))

/-- The tokens that several expressions in a row are read from. -/
def DerivesAll (ts : List Token) (nodes : List Node) : Prop :=
  ∃ parts : List (List Token × Node), (∀ p ∈ parts, Derives p.1 p.2) ∧
    ts = parts.flatMap (·.1) ∧ nodes = parts.map (·.2)

/-- The token list begins with a program: expressions up to the first end of the source, with no
error before it.  Whatever stands behind is not looked at. -/
def DerivesProgram (ts : List Token) (nodes : List Node) : Prop :=
  ∃ body eof rest, ts = body ++ eof :: rest ∧ eof.kind = .eof ∧
    (∀ t ∈ body, t.kind ≠ .eof ∧ t.kind ≠ .error) ∧ DerivesAll body nodes

theorem derivesAll_nil : DerivesAll [] [] := ⟨[], by simp, rfl, rfl⟩

/-- One more expression.  The parser keeps those it has read last one first. -/
theorem DerivesAll.push {ts ts' : List Token} {done : List Node} {node : Node}
    (h : DerivesAll ts done.reverse) (h' : Derives ts' node) :
    DerivesAll (ts ++ ts') (node :: done).reverse := by
  obtain ⟨parts, hparts, rfl, hdone⟩ := h
  refine ⟨parts ++ [(ts', node)], fun p hp => ?_, by simp, by simp [hdone]⟩
  rcases List.mem_append.1 hp with hp | hp
  · exact hparts p hp
  · obtain rfl := List.mem_singleton.1 hp
    exact h'

/-- A call in parentheses is the body of a `lambda`. -/
theorem Derives.lambda_of_call {head : Token} {params ps body ts : List Token}
    {name : String} {args : List Node} (h : Derives body (.call name args))
    (hhead : head.IsHead "lambda") (hparams : ∀ t ∈ params, t.IsParam) (hps : Bracketed params ps)
    (hts : Bracketed (head :: (ps ++ body)) ts) :
    Derives ts (.lambda (params.map (·.text)) name args) := by
  cases h with
  | call hcallee hparts hbody => exact .lambda hhead hparams hps hcallee hparts hbody hts

/-- A kind that a token inside a program has. -/
def TokenKind.Inner (kind : TokenKind) : Prop := kind ≠ .eof ∧ kind ≠ .error

theorem Bracketed.inner {inner ts : List Token} (h : Bracketed inner ts)
    (hinner : ∀ t ∈ inner, t.kind.Inner) : ∀ t ∈ ts, t.kind.Inner := by
  cases h with
  | mk hopening hclosing =>
    intro t ht
    rw [List.cons_append, List.mem_cons, List.mem_append, List.mem_singleton] at ht
    rcases ht with rfl | ht | rfl
    · exact hopening ▸ ⟨by simp, by simp⟩
    · exact hinner t ht
    · exact hclosing ▸ ⟨by simp, by simp⟩

theorem inner_flatMap {parts : List (List Token × Node)}
    (h : ∀ p ∈ parts, ∀ t ∈ p.1, t.kind.Inner) : ∀ t ∈ parts.flatMap (·.1), t.kind.Inner := by
  intro t ht
  obtain ⟨p, hp, htp⟩ := List.mem_flatMap.1 ht
  exact h p hp t htp

theorem TokenKind.Inner.of_call {kind : TokenKind} (h : kind = .call) : kind.Inner :=
  h ▸ ⟨by simp, by simp⟩

/-- An expression goes on neither past the end of the source nor past an error. -/
theorem Derives.inner {ts : List Token} {node : Node} (h : Derives ts node) :
    ∀ t ∈ ts, t.kind.Inner := by
  induction h with
  | number hkind _ | string hkind _ | bool hkind _ | var hkind =>
    simp [TokenKind.Inner, hkind]
  | define hhead hname _ hts ih =>
    refine hts.inner (List.forall_mem_cons.2 ⟨?_, List.forall_mem_cons.2 ⟨?_, ih⟩⟩)
    · simp [TokenKind.Inner, hhead]
    · simp [TokenKind.Inner, hname]
  | assign hhead hname _ hts ih =>
    refine hts.inner (List.forall_mem_cons.2 ⟨.of_call hhead.kind, ?_⟩)
    exact List.forall_mem_cons.2 ⟨by simp [TokenKind.Inner, hname], ih⟩
  | cond hhead _ _ _ hts ihtest ihconseq ihalt =>
    refine hts.inner (List.forall_mem_cons.2 ⟨.of_call hhead.kind, ?_⟩)
    simp only [List.forall_mem_append]
    exact ⟨⟨ihtest, ihconseq⟩, ihalt⟩
  | begin hhead _ _ hts ih =>
    exact hts.inner (List.forall_mem_cons.2 ⟨.of_call hhead.kind, inner_flatMap ih⟩)
  | call hhead _ hts ih =>
    exact hts.inner (List.forall_mem_cons.2 ⟨.of_call hhead.kind, inner_flatMap ih⟩)
  | lambda hhead hparams hps hcallee _ hbody hts ih =>
    refine hts.inner (List.forall_mem_cons.2 ⟨.of_call hhead.kind, ?_⟩)
    refine List.forall_mem_append.2 ⟨hps.inner fun t ht => ?_, ?_⟩
    · rcases hparams t ht with hkind | hkind <;> simp [TokenKind.Inner, hkind]
    · exact hbody.inner (List.forall_mem_cons.2 ⟨.of_call hcallee.kind, inner_flatMap ih⟩)

theorem DerivesAll.inner {ts : List Token} {nodes : List Node} (h : DerivesAll ts nodes) :
    ∀ t ∈ ts, t.kind.Inner := by
  obtain ⟨parts, hparts, rfl, -⟩ := h
  exact inner_flatMap fun p hp => (hparts p hp).inner

namespace Parse

variable {limit : Nat} {fits fits' : Prop} {goal goal' goal'' : Goal}
  {holes holes' holes'' : List Hole} {ts ts' : List Token}

/-! ## What has a derivation is accepted -/

/-- Reading ended because the nesting is too deep. -/
def TooDeep (outcome : Outcome Node) : Prop :=
  ∃ line, outcome.1 = .error (.parse (.tooDeep maxNesting line))

/-- If the tokens fit below the limit they take the parser from one state to another, and if not,
reading ends among them for that reason. -/
structure Follows (limit : Nat) (fits : Prop) (goal : Goal) (holes : List Hole) (ts : List Token)
    (goal' : Goal) (holes' : List Hole) : Prop where
  leads : fits → ∀ rest, run limit goal holes (ts ++ rest) = run limit goal' holes' rest
  refused : ¬ fits → ∀ rest, TooDeep (run limit goal holes (ts ++ rest))

theorem Follows.refl : Follows limit True goal holes [] goal holes :=
  ⟨fun _ _ => rfl, fun h => absurd trivial h⟩

theorem Follows.congr (h : Follows limit fits goal holes ts goal' holes') (hfits : fits' ↔ fits) :
    Follows limit fits' goal holes ts goal' holes' :=
  ⟨fun hf => h.leads (hfits.1 hf), fun hf => h.refused fun hf' => hf (hfits.2 hf')⟩

theorem Follows.trans (h : Follows limit fits goal holes ts goal' holes')
    (h' : Follows limit fits' goal' holes' ts' goal'' holes'') :
    Follows limit (fits ∧ fits') goal holes (ts ++ ts') goal'' holes'' := by
  refine ⟨fun hf rest => ?_, fun hf rest => ?_⟩
  · rw [List.append_assoc, h.leads hf.1, h'.leads hf.2]
  · rw [List.append_assoc]
    by_cases hfits : fits
    · rw [h.leads hfits]
      exact h'.refused (fun hf' => hf ⟨hfits, hf'⟩) rest
    · exact h.refused hfits _

theorem run_cons_of_shift {t : Token} (hkind : t.kind ≠ .error)
    (h : step limit goal holes t = .shift goal' holes') (rest : List Token) :
    run limit goal holes (t :: rest) = run limit goal' holes' rest := by
  rw [run, if_neg hkind, h]

/-- A token that is taken whatever the depth is, and those after it. -/
theorem Follows.cons {t : Token} (hkind : t.kind ≠ .error)
    (h : step limit goal holes t = .shift goal' holes')
    (h' : Follows limit fits goal' holes' ts goal'' holes'') :
    Follows limit fits goal holes (t :: ts) goal'' holes'' := by
  refine ⟨fun hf rest => ?_, fun hf rest => ?_⟩
  · rw [List.cons_append, run_cons_of_shift hkind h, h'.leads hf]
  · rw [List.cons_append, run_cons_of_shift hkind h]
    exact h'.refused hf rest

theorem Follows.single {t : Token} (hkind : t.kind ≠ .error)
    (h : step limit goal holes t = .shift goal' holes') :
    Follows limit True goal holes [t] goal' holes' :=
  .cons hkind h .refl

/-! ### Where an expression may begin -/

/-- The hole on top takes any expression. -/
def TakesAny (holes : List Hole) : Prop := ∀ line params below, holes ≠ .body line params :: below

/-- A token that cannot close the form around it is looked at as the first of an expression. -/
theorem step_operand_of_takesAny (h : TakesAny holes) {t : Token} (heof : t.kind ≠ .eof)
    (hclose : t.kind ≠ .rightParen) :
    step limit .operand holes t = expressionStep limit holes t := by
  change operandStep limit holes t = _
  unfold operandStep
  split
  case h_1 => rw [if_neg heof]
  case h_2 => rw [if_neg hclose, if_neg heof]
  case h_3 line params below => exact absurd rfl (h line params below)
  case h_4 => rfl

/-- An expression is as deep as its first token, if that is too deep already. -/
theorem follows_of_first {t : Token} {nesting : Nat} (h : TakesAny holes)
    (hkind : t.kind.Inner) (hclose : t.kind ≠ .rightParen) (hnesting : 0 < nesting)
    (hfollows : depth holes < limit →
      Follows limit (depth holes + nesting ≤ limit) .operand holes (t :: ts) goal' holes') :
    Follows limit (depth holes + nesting ≤ limit) .operand holes (t :: ts) goal' holes' := by
  by_cases hdepth : depth holes < limit
  · exact hfollows hdepth
  · refine ⟨fun hf => by omega, fun _ rest => ⟨t.line, ?_⟩⟩
    rw [List.cons_append, run, if_neg hkind.2, step_operand_of_takesAny h hkind.1 hclose,
      expressionStep, if_pos (Nat.le_of_not_lt hdepth)]
    rfl

/-! ### Forms -/

/-- What is known of an expression by induction: its tokens lead on to where it fills the hole. -/
def ReadsAs (limit : Nat) (ts : List Token) (node : Node) : Prop :=
  ∀ holes goal' holes', TakesAny holes → fill node holes = .shift goal' holes' →
    Follows limit (depth holes + node.nesting ≤ limit) .operand holes ts goal' holes'

theorem reads_leaf {t : Token} {node : Node} (hkind : t.kind.Inner)
    (hparens : t.kind ≠ .leftParen ∧ t.kind ≠ .rightParen) (hleaf : leaf t = .ok node)
    (hnesting : node.nesting = 1) : ReadsAs limit [t] node := by
  intro holes goal' holes' htakes hfill
  refine follows_of_first htakes hkind hparens.2 (by omega) fun hdepth => ?_
  have hstep : step limit .operand holes t = .shift goal' holes' := by
    rw [step_operand_of_takesAny htakes hkind.1 hparens.2, expressionStep,
      if_neg (Nat.not_le.2 hdepth), if_neg hparens.1, hleaf]
    exact hfill
  exact (Follows.single hkind.2 hstep).congr ⟨fun _ => trivial, fun _ => by omega⟩

/-- A form is read from its first word on. -/
theorem reads_bracketed {inner : List Token} {node : Node} (hts : Bracketed inner ts)
    (hnesting : 0 < node.nesting)
    (h : ∀ {holes goal' holes'} {closing : Token}, depth holes < limit →
      closing.kind = .rightParen → fill node holes = .shift goal' holes' →
      Follows limit (depth holes + node.nesting ≤ limit) .head holes (inner ++ [closing]) goal'
        holes') : ReadsAs limit ts node := by
  intro holes goal' holes' htakes hfill
  cases hts with
  | @mk opening closing hopening hclosing =>
    have hkind : opening.kind.Inner := by simp [TokenKind.Inner, hopening]
    have hnot : opening.kind ≠ .rightParen := by simp [hopening]
    refine follows_of_first htakes hkind hnot hnesting fun hdepth => ?_
    have hstep : step limit .operand holes opening = .shift .head holes := by
      rw [step_operand_of_takesAny htakes hkind.1 hnot, expressionStep,
        if_neg (Nat.not_le.2 hdepth), if_pos hopening]
    exact .cons hkind.2 hstep (h hdepth hclosing hfill)

theorem follows_closing {context : String} {node : Node} {closing : Token}
    (hclosing : closing.kind = .rightParen) (hfill : fill node holes = .shift goal' holes') :
    Follows limit True (.close context node) holes [closing] goal' holes' :=
  .single (by simp [hclosing]) (by simp [step, hclosing, hfill])

/-- Expressions one after the other, in a form that takes any number of them. -/
theorem follows_parts (hole : List Node → Hole) {level : Nat}
    (hdepth : ∀ done, depth (hole done :: holes) = level)
    (htakes : ∀ done, TakesAny (hole done :: holes))
    (hfill : ∀ node done,
      fill node (hole done :: holes) = .shift .operand (hole (node :: done) :: holes))
    {parts : List (List Token × Node)} (hparts : ∀ p ∈ parts, ReadsAs limit p.1 p.2)
    (done : List Node) :
    Follows limit (∀ p ∈ parts, level + p.2.nesting ≤ limit) .operand (hole done :: holes)
      (parts.flatMap (·.1)) .operand (hole ((parts.map (·.2)).reverse ++ done) :: holes) := by
  induction parts generalizing done with
  | nil => exact Follows.refl.congr (by simp)
  | cons p parts ih =>
    have hfirst := hparts p (by simp) _ _ _ (htakes done) (hfill p.2 done)
    have hrest := ih (fun q hq => hparts q (by simp [hq])) (p.2 :: done)
    rw [List.flatMap_cons, List.map_cons, List.reverse_cons, List.append_assoc]
    refine (hfirst.trans hrest).congr ?_
    rw [List.forall_mem_cons, hdepth]

/-- Of a form with any number of expressions, what is below the limit are its parts. -/
theorem deepest_fits_iff {parts : List (List Token × Node)} {level : Nat} (h : level < limit) :
    level + (Node.deepest (parts.map (·.2)) + 1) ≤ limit ↔
      ∀ p ∈ parts, level + 1 + p.2.nesting ≤ limit := by
  have hle : level + (Node.deepest (parts.map (·.2)) + 1) ≤ limit ↔
      Node.deepest (parts.map (·.2)) ≤ limit - (level + 1) := by omega
  rw [hle, Node.deepest_le_iff, List.forall_mem_map]
  refine forall₂_congr fun p _ => ?_
  omega

/-- A form with any number of expressions, from behind its first word on. -/
theorem follows_block {block : Block} {parts : List (List Token × Node)} {node : Node}
    {closing : Token} (hparts : ∀ p ∈ parts, ReadsAs limit p.1 p.2)
    (hblock : block.node (parts.map (·.2)) = .ok node) (hclosing : closing.kind = .rightParen)
    (hfill : fill node holes = .shift goal' holes') :
    Follows limit (∀ p ∈ parts, depth holes + 1 + p.2.nesting ≤ limit) .operand
      (.item block [] :: holes) (parts.flatMap (·.1) ++ [closing]) goal' holes' := by
  have hdepth : ∀ done, depth (.item block done :: holes) = depth holes + 1 := by
    intro done
    simp [Hole.isLevel]
  have hitems := follows_parts (.item block) hdepth (fun done line params below => by simp)
    (fun node done => rfl) hparts []
  have hstep : step limit .operand (.item block ((parts.map (·.2)).reverse ++ []) :: holes) closing
      = .shift goal' holes' := by
    simp [step, operandStep, hclosing, hblock, fillWith, hfill]
  exact (hitems.trans (.single (by simp [hclosing]) hstep)).congr (by simp)

theorem step_callee {callee : Token} (h : callee.IsCallee) :
    step limit .head holes callee = .shift .operand (.item (.call callee.text) [] :: holes) := by
  have hother := h.other
  simp only [List.mem_cons, List.not_mem_nil, or_false, not_or] at hother
  simp only [step, headStep, h.kind]
  split <;> simp_all

/-- A call from its first word on.  The hole on top may be the body of a `lambda`. -/
theorem follows_call {callee closing : Token} {parts : List (List Token × Node)}
    (hcallee : callee.IsCallee) (hparts : ∀ p ∈ parts, ReadsAs limit p.1 p.2)
    (hclosing : closing.kind = .rightParen)
    (hfill : fill (.call callee.text (parts.map (·.2))) holes = .shift goal' holes') :
    Follows limit (∀ p ∈ parts, depth holes + 1 + p.2.nesting ≤ limit) .head holes
      (callee :: parts.flatMap (·.1) ++ [closing]) goal' holes' :=
  .cons (by simp [hcallee.kind]) (step_callee hcallee) (follows_block hparts rfl hclosing hfill)

/-- A definition or an assignment, from the name that it binds on. -/
theorem follows_binder (binder : Binder) {name closing : Token} {inner : List Token} {value : Node}
    (hname : name.kind = .word) (hvalue : ReadsAs limit inner value)
    (hclosing : closing.kind = .rightParen)
    (hfill : fill (binder.node name.text value) holes = .shift goal' holes') :
    Follows limit (depth holes + 1 + value.nesting ≤ limit) (.target binder) holes
      (name :: inner ++ [closing]) goal' holes' := by
  have hinner := hvalue (.value binder name.text :: holes) _ _ (by simp [TakesAny]) rfl
  have hstep : step limit (.target binder) holes name
      = .shift .operand (.value binder name.text :: holes) := by
    simp [step, hname]
  have hform := Follows.cons (by simp [hname]) hstep (hinner.trans (follows_closing hclosing hfill))
  exact hform.congr (by simp [Hole.isLevel])

theorem follows_cond {ts₁ ts₂ ts₃ : List Token} {test conseq alt : Node} {closing : Token}
    (htest : ReadsAs limit ts₁ test) (hconseq : ReadsAs limit ts₂ conseq)
    (halt : ReadsAs limit ts₃ alt)
    (hclosing : closing.kind = .rightParen)
    (hfill : fill (.cond test conseq alt) holes = .shift goal' holes') :
    Follows limit (depth holes + (Node.cond test conseq alt).nesting ≤ limit) .operand
      (.test :: holes) (ts₁ ++ ts₂ ++ ts₃ ++ [closing]) goal' holes' := by
  have h₁ := htest (.test :: holes) _ _ (by simp [TakesAny]) rfl
  have h₂ := hconseq (.conseq test :: holes) _ _ (by simp [TakesAny]) rfl
  have h₃ := halt (.alt test conseq :: holes) _ _ (by simp [TakesAny]) rfl
  refine (((h₁.trans h₂).trans h₃).trans (follows_closing hclosing hfill)).congr ?_
  simp only [depth_cons, Hole.isLevel, if_true, Node.nesting, and_true]
  omega

/-- The parameters of a `lambda`, and the parenthesis after them. -/
theorem follows_params {line : Nat} {params : List Token} {closing : Token} (names : List String)
    (hparams : ∀ t ∈ params, t.IsParam) (hclosing : closing.kind = .rightParen) :
    Follows limit True (.params line names) holes (params ++ [closing]) .operand
      (.body line (names.reverse ++ params.map (·.text)) :: holes) := by
  induction params generalizing names with
  | nil => exact .single (by simp [hclosing]) (by simp [step, hclosing])
  | cons t params ih =>
    have hrest := ih (t.text :: names) fun u hu => hparams u (by simp [hu])
    rw [List.reverse_cons, List.append_assoc, List.singleton_append] at hrest
    rcases hparams t (by simp) with hkind | hkind
    · exact .cons (by simp [hkind]) (by simp [step, hkind]) hrest
    · exact .cons (by simp [hkind]) (by simp [step, hkind]) hrest

/-- A `lambda` from its parameters on.  Its body is a call, in a hole that takes nothing else and
adds no level. -/
theorem follows_lambda (line : Nat) {callee closing : Token} {params ps body : List Token}
    {parts : List (List Token × Node)} (hparams : ∀ t ∈ params, t.IsParam)
    (hps : Bracketed params ps) (hcallee : callee.IsCallee)
    (hparts : ∀ p ∈ parts, ReadsAs limit p.1 p.2)
    (hbody : Bracketed (callee :: parts.flatMap (·.1)) body) (hclosing : closing.kind = .rightParen)
    (hfill : fill (.lambda (params.map (·.text)) callee.text (parts.map (·.2))) holes
      = .shift goal' holes') :
    Follows limit (∀ p ∈ parts, depth holes + 1 + p.2.nesting ≤ limit) (.paramsOpen line) holes
      (ps ++ body ++ [closing]) goal' holes' := by
  cases hps with
  | @mk popening pclosing hpopening hpclosing =>
  cases hbody with
  | @mk bopening bclosing hbopening hbclosing =>
    have hlist : Follows limit True (.paramsOpen line) holes (popening :: params ++ [pclosing])
        .operand (.body line (params.map (·.text)) :: holes) :=
      .cons (by simp [hpopening]) (by simp [step, hpopening]) (follows_params [] hparams hpclosing)
    have hcall : Follows limit _ .head (.body line (params.map (·.text)) :: holes)
        (callee :: parts.flatMap (·.1) ++ [bclosing])
        (.close "lambda" (.lambda (params.map (·.text)) callee.text (parts.map (·.2)))) holes :=
      follows_call hcallee hparts hbclosing rfl
    have hstep : step limit .operand (.body line (params.map (·.text)) :: holes) bopening
        = .shift .head (.body line (params.map (·.text)) :: holes) := by
      simp [step, operandStep, hbopening]
    have hbody := Follows.cons (by simp [hbopening]) hstep hcall
    refine ((hlist.trans hbody).trans (follows_closing hclosing hfill)).congr ?_
    simp [Hole.isLevel]

/-- The tokens of an expression lead to where the expression fills the hole on top, unless it is
nested too deep there. -/
theorem reads_of_derives (limit : Nat) {node : Node} (h : Derives ts node) :
    ReadsAs limit ts node := by
  induction h with
  | number hkind hliteral =>
    exact reads_leaf (by simp [TokenKind.Inner, hkind]) (by simp [hkind])
      (by simp [leaf, hkind, hliteral]) rfl
  | string hkind hdecode =>
    exact reads_leaf (by simp [TokenKind.Inner, hkind]) (by simp [hkind])
      (by simp [leaf, hkind, hdecode]) rfl
  | @bool t value hkind htext =>
    refine reads_leaf (by simp [TokenKind.Inner, hkind]) (by simp [hkind]) ?_ rfl
    cases value <;> simp_all [leaf]
  | var hkind =>
    exact reads_leaf (by simp [TokenKind.Inner, hkind]) (by simp [hkind])
      (by simp [leaf, hkind]) rfl
  | define hhead hname _ hts ih =>
    refine reads_bracketed hts (by simp [Node.nesting]) fun hdepth hclosing hfill => ?_
    have hform := follows_binder .define hname ih hclosing hfill
    refine .cons (by simp [hhead]) (by simp [step, headStep, hhead]) (hform.congr ?_)
    simp only [Node.nesting]
    omega
  | assign hhead hname _ hts ih =>
    refine reads_bracketed hts (by simp [Node.nesting]) fun hdepth hclosing hfill => ?_
    have hform := follows_binder .assign hname ih hclosing hfill
    refine .cons (by simp [hhead.kind]) (by simp [step, headStep, hhead.kind, hhead.text])
      (hform.congr ?_)
    simp only [Node.nesting]
    omega
  | cond hhead _ _ _ hts ihtest ihconseq ihalt =>
    refine reads_bracketed hts (by simp [Node.nesting]) fun hdepth hclosing hfill => ?_
    exact .cons (by simp [hhead.kind]) (by simp [step, headStep, hhead.kind, hhead.text])
      (follows_cond ihtest ihconseq ihalt hclosing hfill)
  | @begin head parts ts hhead hne _ hts ih =>
    refine reads_bracketed hts (by simp [Node.nesting]) fun hdepth hclosing hfill => ?_
    have hblock : (Block.begin head.line).node (parts.map (·.2))
        = .ok (.begin (parts.map (·.2))) := by
      obtain ⟨p, rest, rfl⟩ := List.exists_cons_of_ne_nil hne
      rfl
    have hform := follows_block ih hblock hclosing hfill
    refine .cons (by simp [hhead.kind]) (by simp [step, headStep, hhead.kind, hhead.text])
      (hform.congr ?_)
    rw [Node.nesting, deepest_fits_iff hdepth]
  | call hcallee _ hts ih =>
    refine reads_bracketed hts (by simp [Node.nesting]) fun hdepth hclosing hfill => ?_
    refine (follows_call hcallee ih hclosing hfill).congr ?_
    rw [Node.nesting, deepest_fits_iff hdepth]
  | @lambda head _ _ _ _ _ _ hhead hparams hps hcallee _ hbody hts ih =>
    refine reads_bracketed hts (by simp [Node.nesting]) fun hdepth hclosing hfill => ?_
    have hform := follows_lambda head.line hparams hps hcallee ih hbody hclosing hfill
    refine .cons (by simp [hhead.kind]) (by simp [step, headStep, hhead.kind, hhead.text])
      (hform.congr ?_)
    rw [Node.nesting, deepest_fits_iff hdepth]

/-! ## What is accepted has a derivation -/

/-- The first word of a form that gives a name a value. -/
def Binder.Heads : Binder → Token → Prop
  | .define, t => t.kind = .define
  | .assign, t => t.IsHead "set"

theorem Binder.Heads.derives {binder : Binder} {head name : Token} {inner ts : List Token}
    {value : Node} (h : binder.Heads head) (hname : name.kind = .word)
    (hvalue : Derives inner value) (hts : Bracketed (head :: name :: inner) ts) :
    Derives ts (binder.node name.text value) := by
  cases binder with
  | define => exact .define h hname hvalue hts
  | assign => exact .assign h hname hvalue hts

/-- The first word of a form that holds any number of expressions. -/
inductive Block.Heads : Block → Token → Prop where
  | begin {t : Token} {line : Nat} : t.IsHead "begin" → Heads (.begin line) t
  | call {t : Token} : t.IsCallee → Heads (.call t.text) t

theorem Block.Heads.derives {block : Block} {head : Token} {inner ts : List Token}
    {nodes : List Node} {node : Node} (h : block.Heads head) (hnodes : DerivesAll inner nodes)
    (hnode : block.node nodes = .ok node) (hts : Bracketed (head :: inner) ts) :
    Derives ts node := by
  obtain ⟨parts, hparts, rfl, rfl⟩ := hnodes
  cases h with
  | begin hhead =>
    cases parts with
    | nil => cases hnode
    | cons p parts =>
      cases hnode
      exact .begin hhead (by simp) hparts hts
  | call hcallee =>
    cases hnode
    exact .call hcallee hparts hts

/-- The tokens that an open form below the program was read from. -/
inductive Hole.ReadFrom : Hole → List Token → Prop where
  | value {binder : Binder} {opening head name : Token} :
    opening.kind = .leftParen → binder.Heads head → name.kind = .word →
      ReadFrom (.value binder name.text) [opening, head, name]
  | test {opening head : Token} :
    opening.kind = .leftParen → head.IsHead "if" → ReadFrom .test [opening, head]
  | conseq {opening head : Token} {ts : List Token} {test : Node} :
    opening.kind = .leftParen → head.IsHead "if" → Derives ts test →
      ReadFrom (.conseq test) (opening :: head :: ts)
  | alt {opening head : Token} {ts ts' : List Token} {test conseq : Node} :
    opening.kind = .leftParen → head.IsHead "if" → Derives ts test → Derives ts' conseq →
      ReadFrom (.alt test conseq) (opening :: head :: (ts ++ ts'))
  | item {opening head : Token} {block : Block} {ts : List Token} {done : List Node} :
    opening.kind = .leftParen → block.Heads head → DerivesAll ts done.reverse →
      ReadFrom (.item block done) (opening :: head :: ts)
  | body {opening head : Token} {line : Nat} {params ps : List Token} :
    opening.kind = .leftParen → head.IsHead "lambda" → (∀ t ∈ params, t.IsParam) →
      Bracketed params ps → ReadFrom (.body line (params.map (·.text))) (opening :: head :: ps)

/-- The tokens that the open forms were read from, with the program as the lowest. -/
inductive StackReadFrom : List Hole → List Token → Prop where
  | program {done : List Node} {ts : List Token} :
    DerivesAll ts done.reverse → StackReadFrom [.program done] ts
  | push {hole : Hole} {holes : List Hole} {ts below : List Token} :
    hole.ReadFrom ts → StackReadFrom holes below → StackReadFrom (hole :: holes) (below ++ ts)

/-- The tokens that were read of the form at hand, which is not a hole yet, or no longer. -/
inductive Goal.ReadFrom : Goal → List Token → Prop where
  | operand : ReadFrom .operand []
  | head {opening : Token} : opening.kind = .leftParen → ReadFrom .head [opening]
  | target {binder : Binder} {opening head : Token} :
    opening.kind = .leftParen → binder.Heads head → ReadFrom (.target binder) [opening, head]
  | paramsOpen {line : Nat} {opening head : Token} :
    opening.kind = .leftParen → head.IsHead "lambda" → ReadFrom (.paramsOpen line) [opening, head]
  | params {line : Nat} {opening head popening : Token} {params : List Token} :
    opening.kind = .leftParen → head.IsHead "lambda" → popening.kind = .leftParen →
      (∀ t ∈ params, t.IsParam) →
      ReadFrom (.params line (params.map (·.text)).reverse) (opening :: head :: popening :: params)
  | close {context : String} {node : Node} {ts : List Token} :
    (∀ closing : Token, closing.kind = .rightParen → Derives (ts ++ [closing]) node) →
      ReadFrom (.close context node) ts

/-- The tokens that the parser has read when it comes to a state. -/
def ReadFrom (goal : Goal) (holes : List Hole) (read : List Token) : Prop :=
  ∃ below top, read = below ++ top ∧ StackReadFrom holes below ∧ goal.ReadFrom top

/-- What a token does after some tokens were read: it is one more of them, or an error, or the end
of a program. -/
def Step.Traces (read : List Token) (t : Token) : Step → Prop
  | .shift goal holes => ReadFrom goal holes (read ++ [t])
  | .stop result => ∀ node, result ≠ .ok node
  | .leave result => ∀ node, result = .ok node →
    t.kind = .eof ∧ ∃ nodes, node = .list nodes ∧ DerivesAll read nodes

theorem Step.traces_stop {read : List Token} {t : Token} {e : SyntaxError} :
    (Step.stop (.error e)).Traces read t := by
  intro node h
  cases h

theorem Step.traces_leave {read : List Token} {t : Token} {e : SyntaxError} :
    (Step.leave (.error e)).Traces read t := by
  intro node h
  cases h

/-- A form at hand after one more token of it. -/
theorem traces_shift {below top : List Token} {t : Token} (hstack : StackReadFrom holes below)
    (h : goal.ReadFrom (top ++ [t])) : (Step.shift goal holes).Traces (below ++ top) t :=
  ⟨below, top ++ [t], List.append_assoc _ _ _, hstack, h⟩

/-- A finished node fills the hole on top with the tokens that it was read from. -/
theorem fill_traces {below top : List Token} {t : Token} {node : Node}
    (hstack : StackReadFrom holes below) (hnode : Derives (top ++ [t]) node) :
    (fill node holes).Traces (below ++ top) t := by
  cases hstack with
  | program hdone =>
    exact ⟨below ++ (top ++ [t]), [], by simp, .program (hdone.push hnode), .operand⟩
  | @push hole holes ts below hhole hholes =>
    rw [List.append_assoc]
    cases hhole with
    | @value binder opening head name hopening hhead hname =>
      refine traces_shift hholes (.close fun closing hclosing => ?_)
      exact hhead.derives hname hnode (.mk hopening hclosing)
    | test hopening hhead =>
      refine ⟨_, [], ?_, .push (.conseq hopening hhead hnode) hholes, .operand⟩
      simp
    | conseq hopening hhead htest =>
      refine ⟨_, [], ?_, .push (.alt hopening hhead htest hnode) hholes, .operand⟩
      simp
    | alt hopening hhead htest hconseq =>
      refine traces_shift hholes (.close fun closing hclosing => ?_)
      have hform := Derives.cond hhead htest hconseq hnode (.mk hopening hclosing)
      simpa using hform
    | item hopening hhead hdone =>
      refine ⟨_, [], ?_, .push (.item hopening hhead (hdone.push hnode)) hholes, .operand⟩
      simp
    | body hopening hhead hparams hps =>
      cases node with
      | call name args =>
        refine traces_shift hholes (.close fun closing hclosing => ?_)
        have hform := hnode.lambda_of_call hhead hparams hps (.mk hopening hclosing)
        simpa using hform
      | _ => exact Step.traces_stop

theorem fillWith_traces {below top : List Token} {t : Token} {node : Except SyntaxError Node}
    (hstack : StackReadFrom holes below) (hnode : ∀ n, node = .ok n → Derives (top ++ [t]) n) :
    (fillWith node holes).Traces (below ++ top) t := by
  cases node with
  | ok n => exact fill_traces hstack (hnode n rfl)
  | error e => exact Step.traces_stop

theorem derives_leaf {t : Token} {node : Node} (h : leaf t = .ok node) : Derives [t] node := by
  unfold leaf at h
  split at h
  case h_1 hkind =>
    split at h
    case h_1 literal hliteral => cases h; exact .number hkind hliteral
    case h_2 => cases h
  case h_2 hkind =>
    split at h
    case h_1 text hdecode => cases h; exact .string hkind hdecode
    case h_2 => cases h
  case h_3 hkind =>
    split at h
    case isTrue htext => cases h; exact .bool hkind htext
    case isFalse =>
      split at h
      case isTrue htext => cases h; exact .bool hkind htext
      case isFalse => cases h
  case h_4 hkind => cases h; exact .var hkind
  case h_5 => cases h

theorem expressionStep_traces (limit : Nat) {read : List Token} (hstack : StackReadFrom holes read)
    (t : Token) : (expressionStep limit holes t).Traces read t := by
  rw [← List.append_nil read]
  unfold expressionStep
  split
  case isTrue => exact Step.traces_leave
  case isFalse =>
    split
    case isTrue hopening => exact traces_shift hstack (.head hopening)
    case isFalse => exact fillWith_traces hstack fun node hnode => derives_leaf hnode

theorem operandStep_traces (limit : Nat) {read : List Token} (hstack : StackReadFrom holes read)
    (t : Token) : (operandStep limit holes t).Traces read t := by
  have hexpression := expressionStep_traces limit hstack t
  cases hstack with
  | program hdone =>
    simp only [operandStep]
    split
    case isTrue heof =>
      rintro node ⟨⟩
      exact ⟨heof, _, rfl, hdone⟩
    case isFalse => exact hexpression
  | @push hole holes ts below hhole hholes =>
    cases hhole with
    | item hopening hhead hdone =>
      simp only [operandStep]
      split
      case isTrue hclosing =>
        refine fillWith_traces hholes fun node hnode => ?_
        exact hhead.derives hdone hnode (.mk hopening hclosing)
      case isFalse =>
        split
        case isTrue => exact Step.traces_stop
        case isFalse => exact hexpression
    | body hopening hhead hparams hps =>
      simp only [operandStep]
      split
      case isTrue hbody =>
        exact ⟨_, [t], rfl, .push (.body hopening hhead hparams hps) hholes, .head hbody⟩
      case isFalse => exact Step.traces_leave
    | value | test | conseq | alt => exact hexpression

theorem headStep_traces {below : List Token} {opening : Token} (hstack : StackReadFrom holes below)
    (hopening : opening.kind = .leftParen) (t : Token) :
    (headStep holes t).Traces (below ++ [opening]) t := by
  have hpush : ∀ {hole : Hole}, hole.ReadFrom [opening, t] →
      (Step.shift .operand (hole :: holes)).Traces (below ++ [opening]) t := by
    intro hole hhole
    exact ⟨below ++ [opening, t], [], by simp, .push hhole hstack, .operand⟩
  unfold headStep
  split
  case h_1 hkind => exact traces_shift hstack (.target hopening hkind)
  case h_2 hkind =>
    split
    case h_1 htext => exact traces_shift hstack (.target hopening ⟨hkind, htext⟩)
    case h_2 htext => exact hpush (.test hopening ⟨hkind, htext⟩)
    case h_3 htext => exact hpush (.item hopening (.begin ⟨hkind, htext⟩) derivesAll_nil)
    case h_4 htext => exact traces_shift hstack (.paramsOpen hopening ⟨hkind, htext⟩)
    case h_5 hset hif hbegin hlambda =>
      have hcallee : t.IsCallee := ⟨hkind, by simp_all⟩
      exact hpush (.item hopening (.call hcallee) derivesAll_nil)
  case h_3 => exact Step.traces_stop

/-- One token keeps up which tokens were read. -/
theorem step_traces (limit : Nat) {read : List Token} (h : ReadFrom goal holes read) (t : Token) :
    (step limit goal holes t).Traces read t := by
  obtain ⟨below, top, rfl, hstack, hgoal⟩ := h
  cases hgoal with
  | operand =>
    rw [List.append_nil]
    exact operandStep_traces limit hstack t
  | head hopening => exact headStep_traces hstack hopening t
  | target hopening hhead =>
    simp only [step]
    split
    case isTrue hname =>
      exact ⟨_, [], by simp, .push (.value hopening hhead hname) hstack, .operand⟩
    case isFalse => exact Step.traces_stop
  | paramsOpen hopening hhead =>
    simp only [step]
    split
    case isTrue hpopening =>
      have hnone : ∀ u ∈ ([] : List Token), u.IsParam := by simp
      exact traces_shift hstack (.params hopening hhead hpopening hnone)
    case isFalse => exact Step.traces_stop
  | @params line opening head popening params hopening hhead hpopening hparams =>
    have hparam : t.IsParam →
        (Step.shift (.params line (t.text :: (params.map (·.text)).reverse)) holes).Traces
          (below ++ opening :: head :: popening :: params) t := by
      intro ht
      have hall : ∀ u ∈ params ++ [t], u.IsParam :=
        List.forall_mem_append.2 ⟨hparams, by simpa using ht⟩
      have hgoal : Goal.ReadFrom (.params line ((params ++ [t]).map (·.text)).reverse) _ :=
        .params hopening hhead hpopening hall
      exact traces_shift hstack (by simpa using hgoal)
    simp only [step]
    split
    case h_1 hkind => exact hparam (.inl hkind)
    case h_2 hkind => exact hparam (.inr hkind)
    case h_3 hkind =>
      rw [List.reverse_reverse]
      have hbody : Hole.ReadFrom (.body line (params.map (·.text))) _ :=
        .body hopening hhead hparams (.mk hpopening hkind)
      exact ⟨_, [], by simp, .push hbody hstack, .operand⟩
    case h_4 => exact Step.traces_stop
  | close hnode =>
    simp only [step]
    split
    case isTrue hclosing => exact fill_traces hstack (hnode t hclosing)
    case isFalse => exact Step.traces_stop

/-- A run that succeeds ends at the end of a program. -/
theorem run_traces {read : List Token} (h : ReadFrom goal holes read) {node : Node}
    (hrun : (run limit goal holes ts).1 = .ok node) :
    ∃ nodes body eof rest, node = .list nodes ∧ read ++ ts = body ++ eof :: rest ∧
      eof.kind = .eof ∧ DerivesAll body nodes := by
  induction ts generalizing goal holes read with
  | nil => cases hrun
  | cons t rest ih =>
    have htraces := step_traces limit h t
    rw [run] at hrun
    split at hrun
    case isTrue => cases hrun
    case isFalse =>
      split at hrun
      case h_1 goal' holes' hstep =>
        rw [hstep] at htraces
        obtain ⟨nodes, body, eof, rest', hnode, hsplit, heof, hbody⟩ := ih htraces hrun
        exact ⟨nodes, body, eof, rest', hnode, by simpa using hsplit, heof, hbody⟩
      case h_2 result hstep =>
        rw [hstep] at htraces
        cases result with
        | ok n => exact absurd rfl (htraces n)
        | error e => cases hrun
      case h_3 result hstep =>
        rw [hstep] at htraces
        cases result with
        | ok n =>
          cases hrun
          obtain ⟨heof, nodes, hnode, hread⟩ := htraces _ rfl
          exact ⟨nodes, read, t, rest, hnode, rfl, heof, hread⟩
        | error e => cases hrun

/-! ## Programs -/

/-- A program leads to its end, unless it is nested too deep. -/
theorem follows_program (limit : Nat) {nodes : List Node} (h : DerivesAll ts nodes)
    (done : List Node) :
    Follows limit (∀ n ∈ nodes, n.nesting ≤ limit) .operand [.program done] ts .operand
      [.program (nodes.reverse ++ done)] := by
  obtain ⟨parts, hparts, rfl, rfl⟩ := h
  have hdepth : ∀ done, depth [.program done] = 0 := fun done => rfl
  have hitems := follows_parts .program hdepth (fun done line params below => by simp)
    (fun node done => rfl) (fun p hp => reads_of_derives limit (hparts p hp)) done
  refine hitems.congr ?_
  rw [List.forall_mem_map]
  simp only [Nat.zero_add]

/-- The end of the source is the end of a program. -/
theorem run_eof {eof : Token} (h : eof.kind = .eof) (done : List Node) (rest : List Token) :
    run limit .operand [.program done] (eof :: rest) = (.ok (.list done.reverse), eof :: rest) := by
  simp only [run, step, operandStep, h, if_true, reduceCtorEq, if_false]
  rfl

/-- What the parser makes of a program, with any limit to the nesting. -/
theorem run_derivesProgram (limit : Nat) {nodes : List Node} (h : DerivesProgram ts nodes) :
    ((∀ n ∈ nodes, n.nesting ≤ limit) →
      (run limit .operand [.program []] ts).1 = .ok (.list nodes)) ∧
    (¬ (∀ n ∈ nodes, n.nesting ≤ limit) → TooDeep (run limit .operand [.program []] ts)) := by
  obtain ⟨body, eof, rest, rfl, heof, -, hbody⟩ := h
  have hfollows := follows_program limit hbody []
  refine ⟨fun hfits => ?_, fun hdeep => hfollows.refused hdeep _⟩
  rw [hfollows.leads hfits, run_eof heof]
  simp

theorem readFrom_start : ReadFrom .operand [.program []] [] :=
  ⟨[], [], rfl, .program derivesAll_nil, .operand⟩

theorem derivesProgram_of_program {node : Node} (h : (program ts).1 = .ok node) :
    ∃ nodes, node = .list nodes ∧ DerivesProgram ts nodes := by
  obtain ⟨nodes, body, eof, rest, hnode, hsplit, heof, hbody⟩ := run_traces readFrom_start h
  exact ⟨nodes, hnode, body, eof, rest, hsplit, heof, hbody.inner, hbody⟩

theorem program_eq_ok_iff {nodes : List Node} :
    (program ts).1 = .ok (.list nodes) ↔
      DerivesProgram ts nodes ∧ ∀ n ∈ nodes, n.nesting ≤ maxNesting := by
  refine ⟨fun h => ?_, fun h => (run_derivesProgram maxNesting h.1).1 h.2⟩
  obtain ⟨nodes', hnode, hprogram⟩ := derivesProgram_of_program h
  cases hnode
  refine ⟨hprogram, Classical.byContradiction fun hfits => ?_⟩
  obtain ⟨line, herror⟩ := (run_derivesProgram maxNesting hprogram).2 hfits
  exact absurd (h.symm.trans herror) (by simp)

end Parse

/-- A token list begins with one program at most. -/
theorem DerivesProgram.unique {ts : List Token} {nodes nodes' : List Node}
    (h : DerivesProgram ts nodes) (h' : DerivesProgram ts nodes') : nodes = nodes' := by
  -- With a limit that both programs are below, the parser returns both.
  let limit := max (Node.deepest nodes) (Node.deepest nodes')
  have hrun := (Parse.run_derivesProgram limit h).1 (Node.deepest_le_iff.1 (Nat.le_max_left _ _))
  have hrun' := (Parse.run_derivesProgram limit h').1 (Node.deepest_le_iff.1 (Nat.le_max_right _ _))
  have heq := hrun.symm.trans hrun'
  simpa using heq

/-- The parser accepts exactly what the grammar derives.  On any token list it returns some
expressions if and only if the list begins with a program of these expressions and none of them is
nested too deep; it returns nothing but programs; the program is determined by the token list; and
if it is nested too deep, that is the error. -/
theorem parser_decides_grammar (ts : List Token) :
    (∀ nodes, (Parse.program ts).1 = .ok (.list nodes) ↔
      DerivesProgram ts nodes ∧ ∀ n ∈ nodes, n.nesting ≤ Parse.maxNesting) ∧
    (∀ node, (Parse.program ts).1 = .ok node → ∃ nodes, node = .list nodes) ∧
    (∀ nodes nodes', DerivesProgram ts nodes → DerivesProgram ts nodes' → nodes = nodes') ∧
    (∀ nodes, DerivesProgram ts nodes → (∃ n ∈ nodes, Parse.maxNesting < n.nesting) →
      ∃ line, (Parse.program ts).1 = .error (.parse (.tooDeep Parse.maxNesting line))) := by
  refine ⟨fun nodes => Parse.program_eq_ok_iff, fun node h => ?_, fun _ _ h h' => h.unique h', ?_⟩
  · obtain ⟨nodes, hnode, -⟩ := Parse.derivesProgram_of_program h
    exact ⟨nodes, hnode⟩
  · rintro nodes h ⟨n, hn, hnesting⟩
    exact (Parse.run_derivesProgram Parse.maxNesting h).2 fun hfits =>
      Nat.not_lt.2 (hfits n hn) hnesting

/-- A token that no source has to have. -/
def Token.made (kind : TokenKind) (text : String) : Token := ⟨kind, text, 0, 0, 1⟩

/-- So many `begin` forms inside one another, around a boolean. -/
def Token.nested : Nat → List Token
  | 0 => [made .bool "#t"]
  | n + 1 => made .leftParen "(" :: (made .call "begin" :: nested n) ++ [made .rightParen ")"]

/-- What `Token.nested` is read as. -/
def Node.nested : Nat → Node
  | 0 => .bool true
  | n + 1 => .begin [Node.nested n]

theorem derives_nested (n : Nat) : Derives (Token.nested n) (Node.nested n) := by
  induction n with
  | zero => exact .bool rfl rfl
  | succ n ih =>
    have hhead : (Token.made .call "begin").IsHead "begin" := ⟨rfl, rfl⟩
    have hparts : ∀ p ∈ [(Token.nested n, Node.nested n)], Derives p.1 p.2 := by simpa using ih
    have hform : Bracketed (.made .call "begin" :: Token.nested n) (Token.nested (n + 1)) :=
      .mk rfl rfl
    exact .begin hhead (List.cons_ne_nil _ _) hparts (by simpa using hform)

theorem Node.nesting_nested (n : Nat) : (Node.nested n).nesting = n + 1 := by
  induction n with
  | zero => rfl
  | succ n ih => simp [Node.nested, Node.nesting, Node.deepest, ih]

theorem derivesProgram_nested (n : Nat) :
    DerivesProgram (Token.nested n ++ [.made .eof ""]) [Node.nested n] := by
  have hall : DerivesAll (Token.nested n) [Node.nested n] :=
    ⟨[(Token.nested n, Node.nested n)], by simpa using derives_nested n, by simp, rfl⟩
  exact ⟨Token.nested n, .made .eof "", [], rfl, rfl, hall.inner, hall⟩

/-- The limit is sharp: 2000 levels are read, and one more is refused. -/
theorem nested_is_decided :
    (Parse.program (Token.nested 1999 ++ [.made .eof ""])).1 = .ok (.list [Node.nested 1999]) ∧
    DerivesProgram (Token.nested 2000 ++ [.made .eof ""]) [Node.nested 2000] ∧
    ∃ line, (Parse.program (Token.nested 2000 ++ [.made .eof ""])).1
      = .error (.parse (.tooDeep 2000 line)) := by
  have hfits : ∀ n ∈ [Node.nested 1999], n.nesting ≤ Parse.maxNesting := by
    simp [Node.nesting_nested, Parse.maxNesting]
  have hdeep : ∃ n ∈ [Node.nested 2000], Parse.maxNesting < n.nesting := by
    simp [Node.nesting_nested, Parse.maxNesting]
  have hshallow := (parser_decides_grammar (Token.nested 1999 ++ [.made .eof ""])).1
    [Node.nested 1999]
  have hrefused := (parser_decides_grammar (Token.nested 2000 ++ [.made .eof ""])).2.2.2
  exact ⟨hshallow.2 ⟨derivesProgram_nested 1999, hfits⟩, derivesProgram_nested 2000,
    hrefused _ (derivesProgram_nested 2000) hdeep⟩

end HostLisp
