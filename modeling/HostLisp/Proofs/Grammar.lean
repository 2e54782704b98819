import HostLisp.Node.Parse
import HostLisp.Proofs.TokenLanguage

/-!
# The grammar of program trees

Which trees are programs, said without the parser.  An expression is `Proper` if every name in it
could be read at its place and every literal has its value, and its `nesting` is how many levels of
expressions it has.  A program is a list of proper expressions that are not nested too deep.

Names in the place of a function are words that may follow an opening parenthesis, but not those
that begin a special form.  All other names are variables.  The parameters of a `lambda` are of both
kinds, as the first of them follows a parenthesis.

The main result is `parse_sound`: what the parser makes of a source is a program.  The invariant is
that everything in the open forms is proper and leaves room for the levels around it
(`Parse.Stack`).  One token keeps it (`Parse.step_sound`), because the token before it is known to
be an opening parenthesis or not.
-/

namespace HostLisp

/-! ## Trees -/

/-- The name of a function that is called. -/
def CallName (name : String) : Prop :=
  CallWord name.toList ∧ name ∉ ["set", "if", "begin", "lambda"]

/-- The name of a variable. -/
def VariableName (name : String) : Prop := VariableWord name.toList

/-- The parameters of a `lambda`. -/
def ParamNames : List String → Prop
  | [] => False
  | first :: rest => CallWord first.toList ∧ ∀ name ∈ rest, VariableName name

instance (name : String) : Decidable (CallName name) :=
  inferInstanceAs (Decidable (CallWord name.toList ∧ name ∉ ["set", "if", "begin", "lambda"]))

instance (name : String) : Decidable (VariableName name) :=
  inferInstanceAs (Decidable (VariableWord name.toList))

instance : (params : List String) → Decidable (ParamNames params)
  | [] => .isFalse id
  | first :: rest =>
    inferInstanceAs (Decidable (CallWord first.toList ∧ ∀ name ∈ rest, VariableName name))

theorem ParamNames.concat {params : List String} {name : String} (h : ParamNames params)
    (hname : VariableName name) : ParamNames (params ++ [name]) := by
  match params, h with
  | first :: rest, ⟨hfirst, hrest⟩ =>
    refine ⟨hfirst, fun other hother => ?_⟩
    rcases List.mem_append.1 hother with hother | hother
    · exact hrest other hother
    · exact List.mem_singleton.1 hother ▸ hname

/-- An expression whose names and literals could be read from a source. -/
inductive Node.Proper : Node → Prop where
  | call {name : String} {args : List Node} :
    CallName name → (∀ a ∈ args, a.Proper) → Proper (.call name args)
  | define {name : String} {value : Node} :
    VariableName name → value.Proper → Proper (.define name value)
  | assign {name : String} {value : Node} :
    VariableName name → value.Proper → Proper (.assign name value)
  | cond {test conseq alt : Node} :
    test.Proper → conseq.Proper → alt.Proper → Proper (.cond test conseq alt)
  | begin {body : List Node} : body ≠ [] → (∀ e ∈ body, e.Proper) → Proper (.begin body)
  | var {name : String} : VariableName name → Proper (.var name)
  | number {literal : NumberLiteral} :
    integerLiteral? literal.text = some literal.value → Proper (.number literal)
  | str {text : String} : Proper (.str text)
  | bool {value : Bool} : Proper (.bool value)
  | lambda {params : List String} {name : String} {args : List Node} :
    ParamNames params → CallName name → (∀ a ∈ args, a.Proper) → Proper (.lambda params name args)

mutual

/-- How many levels of expressions a tree has.  The body of a `lambda` is no level of its own. -/
def Node.nesting : Node → Nat
  | .list children => Node.deepest children
  | .call _ args => Node.deepest args + 1
  | .define _ value => value.nesting + 1
  | .assign _ value => value.nesting + 1
  | .cond test conseq alt => max test.nesting (max conseq.nesting alt.nesting) + 1
  | .begin body => Node.deepest body + 1
  | .var _ | .number _ | .str _ | .bool _ => 1
  | .lambda _ _ args => Node.deepest args + 1

/-- The levels of the deepest of several trees. -/
def Node.deepest : List Node → Nat
  | [] => 0
  | node :: rest => max node.nesting (Node.deepest rest)

end

/-- A whole program: proper expressions with at most `limit` levels. -/
def Node.IsProgram (limit : Nat) : Node → Prop
  | .list children => ∀ e ∈ children, e.Proper ∧ e.nesting ≤ limit
  | _ => False

theorem Node.deepest_le_iff {nodes : List Node} {n : Nat} :
    Node.deepest nodes ≤ n ↔ ∀ e ∈ nodes, e.nesting ≤ n := by
  induction nodes with
  | nil => simp [Node.deepest]
  | cons node rest ih => rw [Node.deepest, Nat.max_le, ih, List.forall_mem_cons]

/-! ## Tokens at their places -/

/-- What the parser relies on about a token, by whether it stands right after an opening
parenthesis. -/
structure Token.Apt (afterOpening : Bool) (t : Token) : Prop where
  word : t.kind = .word → afterOpening = false ∧ VariableName t.text
  call : t.kind = .call → afterOpening = true ∧ CallWord t.text.toList
  closing : t.kind = .rightParen → afterOpening = false

theorem Lexeme.Fits.apt {b : Bool} {t : Token} (h : t.lexeme.Fits b) : t.Apt b := by
  obtain ⟨kind, text, start, stop, line⟩ := t
  cases h with
  | opening | closing | define | bool _ | number _ | string _ => constructor <;> simp
  | call hcall => exact ⟨by simp, fun _ => ⟨rfl, hcall⟩, by simp⟩
  | word hword => exact ⟨fun _ => ⟨rfl, hword⟩, by simp, by simp⟩

namespace Parse

variable {limit : Nat}

/-! ## Open forms -/

/-- A proper expression with room for the levels around it. -/
def Sits (limit level : Nat) (node : Node) : Prop :=
  node.Proper ∧ level + node.nesting ≤ limit

/-- The name of a block that has one. -/
def Block.Named : Block → Prop
  | .begin _ => True
  | .call name => CallName name

/-- What is known of a form that is open, if so many levels are around the place in it. -/
def Hole.Sound (limit level : Nat) : Hole → Prop
  | .program done => ∀ e ∈ done, Sits limit level e
  | .value _ name => VariableName name
  | .test => True
  | .conseq e => Sits limit level e
  | .alt e e' => Sits limit level e ∧ Sits limit level e'
  | .item block done => level ≤ limit ∧ block.Named ∧ ∀ e ∈ done, Sits limit level e
  | .body _ params => level < limit ∧ ParamNames params

/-- The open forms of a program that is being read.  The program itself is the lowest. -/
inductive Stack (limit : Nat) : List Hole → Prop where
  | program {done : List Node} : Hole.Sound limit 0 (.program done) → Stack limit [.program done]
  | push {hole : Hole} {holes : List Hole} : (∀ done, hole ≠ .program done) →
    hole.Sound limit (depth (hole :: holes)) → Stack limit holes → Stack limit (hole :: holes)

/-- What is known of the form at hand, by whether the next token stands right after an opening
parenthesis. -/
def Goal.Sound (limit : Nat) (holes : List Hole) (afterOpening : Bool) : Goal → Prop
  | .operand => True
  | .head | .target _ | .paramsOpen _ => depth holes < limit
  | .params _ names =>
    depth holes < limit ∧ afterOpening = names.isEmpty ∧ (names ≠ [] → ParamNames names.reverse)
  | .close _ node => Sits limit (depth holes) node

/-- What a token leads to: forms that are sound, an error, or a program. -/
def Step.Sound (limit : Nat) (afterOpening : Bool) : Step → Prop
  | .shift goal holes => goal.Sound limit holes afterOpening ∧ Stack limit holes
  | .stop result => ∀ node, result ≠ .ok node
  | .leave result => ∀ node, result = .ok node → node.IsProgram limit

theorem Step.sound_stop {e : SyntaxError} {b : Bool} : (Step.stop (.error e)).Sound limit b := by
  intro node h
  cases h

theorem Step.sound_leave {e : SyntaxError} {b : Bool} : (Step.leave (.error e)).Sound limit b := by
  intro node h
  cases h

@[simp] theorem depth_cons (hole : Hole) (holes : List Hole) :
    depth (hole :: holes) = depth holes + if hole.isLevel then 1 else 0 := by
  simp [depth, List.countP_cons]

/-! ## One token -/

/-- A node that fills a hole is a part of a larger one, or the next of several. -/
theorem fill_sound {holes : List Hole} {node : Node} (hstack : Stack limit holes)
    (hnode : Sits limit (depth holes) node) (b : Bool) : (fill node holes).Sound limit b := by
  obtain ⟨hproper, hlevel⟩ := hnode
  cases hstack with
  | program hdone =>
    refine ⟨trivial, .program fun e he => ?_⟩
    rcases List.mem_cons.1 he with rfl | he
    · exact ⟨hproper, hlevel⟩
    · exact hdone e he
  | @push hole holes hne hhole hholes =>
    cases hole with
    | program done => exact absurd rfl (hne done)
    | value binder name =>
      refine ⟨⟨?_, ?_⟩, hholes⟩
      · cases binder with
        | define => exact .define hhole hproper
        | assign => exact .assign hhole hproper
      · cases binder <;> simp [Binder.node, Node.nesting, Hole.isLevel] at hlevel ⊢ <;> omega
    | test => exact ⟨trivial, .push (by simp) ⟨hproper, hlevel⟩ hholes⟩
    | conseq test => exact ⟨trivial, .push (by simp) ⟨hhole, hproper, hlevel⟩ hholes⟩
    | alt test conseq =>
      obtain ⟨⟨htest, htestLevel⟩, hconseq, hconseqLevel⟩ := hhole
      refine ⟨⟨.cond htest hconseq hproper, ?_⟩, hholes⟩
      simp only [depth_cons, Hole.isLevel, if_true] at hlevel htestLevel hconseqLevel
      simp only [Node.nesting]
      omega
    | item block done =>
      refine ⟨trivial, .push (by simp) ⟨hhole.1, hhole.2.1, fun e he => ?_⟩ hholes⟩
      rcases List.mem_cons.1 he with rfl | he
      · exact ⟨hproper, hlevel⟩
      · exact hhole.2.2 e he
    | body line params =>
      cases hproper with
      | call hname hargs => exact ⟨⟨.lambda hhole.2 hname hargs, hlevel⟩, hholes⟩
      | _ => exact Step.sound_stop

theorem fillWith_sound {holes : List Hole} {node : Except SyntaxError Node}
    (hstack : Stack limit holes) (hnode : ∀ n, node = .ok n → Sits limit (depth holes) n)
    (b : Bool) : (fillWith node holes).Sound limit b := by
  cases node with
  | ok n => exact fill_sound hstack (hnode n rfl) b
  | error e => exact Step.sound_stop

/-- An expression that is a single token is proper, and one level. -/
theorem leaf_sound {t : Token} {b : Bool} (ht : t.Apt b) {node : Node} (h : leaf t = .ok node) :
    node.Proper ∧ node.nesting = 1 := by
  unfold leaf at h
  split at h
  case h_1 =>
    split at h
    case h_1 literal hliteral =>
      obtain ⟨value, hvalue, rfl⟩ := Option.map_eq_some_iff.1 hliteral
      cases h
      exact ⟨.number hvalue, rfl⟩
    case h_2 => cases h
  case h_2 =>
    split at h
    case h_1 => cases h; exact ⟨.str, rfl⟩
    case h_2 => cases h
  case h_3 =>
    split at h
    case isTrue => cases h; exact ⟨.bool, rfl⟩
    case isFalse =>
      split at h
      case isTrue => cases h; exact ⟨.bool, rfl⟩
      case isFalse => cases h
  case h_4 hkind =>
    cases h
    exact ⟨.var (ht.word hkind).2, rfl⟩
  case h_5 => cases h

theorem expressionStep_sound {holes : List Hole} {t : Token} {b : Bool}
    (hstack : Stack limit holes) (ht : t.Apt b) (b' : Bool) :
    (expressionStep limit holes t).Sound limit b' := by
  unfold expressionStep
  split
  case isTrue => exact Step.sound_leave
  case isFalse hdepth =>
    split
    case isTrue => exact ⟨by simpa [Goal.Sound] using hdepth, hstack⟩
    case isFalse =>
      refine fillWith_sound hstack (fun n hn => ?_) b'
      obtain ⟨hproper, hnesting⟩ := leaf_sound ht hn
      exact ⟨hproper, by omega⟩

/-- The expressions of a block are those of the finished form. -/
theorem Block.node_sound {block : Block} {done : List Node} {level : Nat} (hblock : block.Named)
    (hlevel : level < limit) (hdone : ∀ e ∈ done, Sits limit (level + 1) e) {node : Node}
    (h : block.node done.reverse = .ok node) : Sits limit level node := by
  have hproper : ∀ e ∈ done.reverse, e.Proper := fun e he => (hdone e (List.mem_reverse.1 he)).1
  have hdeepest : Node.deepest done.reverse ≤ limit - (level + 1) := by
    refine Node.deepest_le_iff.2 fun e he => ?_
    have := (hdone e (List.mem_reverse.1 he)).2
    omega
  unfold Block.node at h
  split at h
  case h_1 => cases h
  case h_2 hne =>
    cases h
    exact ⟨.begin hne hproper, by simp only [Node.nesting]; omega⟩
  case h_3 =>
    cases h
    exact ⟨.call hblock hproper, by simp only [Node.nesting]; omega⟩

theorem operandStep_sound {holes : List Hole} {t : Token} {b : Bool} (hstack : Stack limit holes)
    (ht : t.Apt b) (b' : Bool) : (operandStep limit holes t).Sound limit b' := by
  have hexpression := expressionStep_sound hstack ht b'
  cases hstack with
  | program hdone =>
    simp only [operandStep]
    split
    case isTrue =>
      rintro node ⟨⟩ e he
      obtain ⟨hproper, hlevel⟩ := hdone e (List.mem_reverse.1 he)
      exact ⟨hproper, by omega⟩
    case isFalse => exact hexpression
  | @push hole holes hne hhole hholes =>
    cases hole with
    | program done => exact absurd rfl (hne done)
    | item block done =>
      obtain ⟨hlevel, hblock, hdone⟩ := hhole
      simp only [depth_cons, Hole.isLevel, if_true] at hlevel hdone
      simp only [operandStep]
      split
      case isTrue =>
        exact fillWith_sound hholes (fun n hn => Block.node_sound hblock hlevel hdone hn) b'
      case isFalse =>
        split
        case isTrue => exact Step.sound_stop
        case isFalse => exact hexpression
    | body line params =>
      simp only [operandStep]
      split
      case isTrue => exact ⟨hhole.1, .push hne hhole hholes⟩
      case isFalse => exact Step.sound_leave
    | value _ _ | test | conseq _ | alt _ _ => exact hexpression

theorem headStep_sound {holes : List Hole} {t : Token} {b : Bool} (hstack : Stack limit holes)
    (hdepth : depth holes < limit) (ht : t.Apt b) (b' : Bool) :
    (headStep holes t).Sound limit b' := by
  have hlevel : depth holes + 1 ≤ limit := hdepth
  unfold headStep
  split
  case h_1 => exact ⟨hdepth, hstack⟩
  case h_2 hkind =>
    split
    case h_1 => exact ⟨hdepth, hstack⟩
    case h_2 => exact ⟨trivial, .push (by simp) trivial hstack⟩
    case h_3 => exact ⟨trivial, .push (by simp) ⟨by simpa [Hole.isLevel], trivial, by simp⟩ hstack⟩
    case h_4 => exact ⟨hdepth, hstack⟩
    case h_5 hset hif hbegin hlambda =>
      have hname : CallName t.text := ⟨(ht.call hkind).2, by simp_all⟩
      exact ⟨trivial, .push (by simp) ⟨by simpa [Hole.isLevel], hname, by simp⟩ hstack⟩
  case h_3 => exact Step.sound_stop

/-- A token that stands at its place keeps the open forms sound. -/
theorem step_sound {goal : Goal} {holes : List Hole} {t : Token} {b : Bool}
    (hgoal : goal.Sound limit holes b) (hstack : Stack limit holes) (ht : t.Apt b) :
    (step limit goal holes t).Sound limit t.lexeme.opens := by
  cases goal with
  | operand => exact operandStep_sound hstack ht _
  | head => exact headStep_sound hstack hgoal ht _
  | target binder =>
    simp only [step]
    split
    case isTrue hkind => exact ⟨trivial, .push (by simp) (ht.word hkind).2 hstack⟩
    case isFalse => exact Step.sound_stop
  | paramsOpen line =>
    simp only [step]
    split
    case isTrue hkind =>
      exact ⟨⟨hgoal, by simp [Lexeme.opens, Token.lexeme, hkind], by simp⟩, hstack⟩
    case isFalse => exact Step.sound_stop
  | params line names =>
    obtain ⟨hdepth, hb, hnames⟩ := hgoal
    simp only [step]
    split
    case h_1 hkind =>
      obtain ⟨hafter, hcall⟩ := ht.call hkind
      obtain rfl : names = [] := by simpa [hafter] using hb
      refine ⟨⟨hdepth, by simp [Lexeme.opens, Token.lexeme, hkind], fun _ => ?_⟩, hstack⟩
      exact ⟨hcall, by simp⟩
    case h_2 hkind =>
      obtain ⟨hafter, hword⟩ := ht.word hkind
      have hne : names ≠ [] := by simpa [hafter] using hb
      refine ⟨⟨hdepth, by simp [Lexeme.opens, Token.lexeme, hkind], fun _ => ?_⟩, hstack⟩
      rw [List.reverse_cons]
      exact (hnames hne).concat hword
    case h_3 hkind =>
      have hne : names ≠ [] := by simpa [ht.closing hkind] using hb
      exact ⟨trivial, .push (by simp) ⟨by simpa [Hole.isLevel] using hdepth, hnames hne⟩ hstack⟩
    case h_4 => exact Step.sound_stop
  | close context node =>
    simp only [step]
    split
    case isTrue => exact fill_sound hstack hgoal _
    case isFalse => exact Step.sound_stop

/-! ## Whole sources -/

/-- The end of the source is never taken. -/
theorem step_eof {t : Token} (h : t.kind = .eof) {goal goal' : Goal} {holes holes' : List Hole} :
    step limit goal holes t ≠ .shift goal' holes' := by
  have hexpression : expressionStep limit holes t ≠ .shift goal' holes' := by
    simp only [expressionStep, leaf, h, fillWith]
    split <;> simp
  cases goal with
  | operand =>
    simp only [step, operandStep, h]
    split
    case h_4 => exact hexpression
    all_goals simp
  | head | target _ | paramsOpen _ | params _ _ | close _ _ => simp [step, headStep, h]

/-- The parser stops at the last token of a source, so it never asks for one more. -/
theorem run_ne_fatal {b : Bool} {ts : List Token} (h : Shaped b (ts.map Token.lexeme))
    (goal : Goal) (holes : List Hole) (fault : Fault) :
    (run limit goal holes ts).1 ≠ .error (.fatal fault) := by
  induction ts generalizing b goal holes with
  | nil => cases h
  | cons t rest ih =>
    rw [run]
    split
    case isTrue => simp
    case isFalse herror =>
      split
      case h_1 goal' holes' hstep =>
        rcases h.first with heof | herror' | ⟨-, hrest⟩
        · exact absurd hstep (step_eof heof)
        · exact absurd herror' herror
        · exact ih hrest goal' holes'
      case h_2 result _ =>
        intro hfatal
        cases result <;> cases hfatal
      case h_3 result _ =>
        intro hfatal
        cases result <;> cases hfatal

/-- What is read from sound open forms is a program. -/
theorem run_sound {b : Bool} {ts : List Token} (h : Shaped b (ts.map Token.lexeme)) {goal : Goal}
    {holes : List Hole} (hgoal : goal.Sound limit holes b) (hstack : Stack limit holes)
    {node : Node} (hrun : (run limit goal holes ts).1 = .ok node) : node.IsProgram limit := by
  induction ts generalizing b goal holes with
  | nil => cases h
  | cons t rest ih =>
    rw [run] at hrun
    split at hrun
    case isTrue => cases hrun
    case isFalse herror =>
      have hapt : t.Apt b := by
        rcases h.first with heof | herror' | ⟨hfits, -⟩
        · constructor <;> simp [heof]
        · exact absurd herror' herror
        · exact hfits.apt
      have hsound := step_sound hgoal hstack hapt
      split at hrun
      case h_1 goal' holes' hstep =>
        rw [hstep] at hsound
        rcases h.first with heof | herror' | ⟨-, hrest⟩
        · exact absurd hstep (step_eof heof)
        · exact absurd herror' herror
        · exact ih hrest hsound.1 hsound.2 hrun
      case h_2 result hstep =>
        rw [hstep] at hsound
        cases result with
        | ok n => exact absurd rfl (hsound n)
        | error e => cases hrun
      case h_3 result hstep =>
        rw [hstep] at hsound
        cases result with
        | ok n => cases hrun; exact hsound _ rfl
        | error e => cases hrun

end Parse

/-- What a source parses to is a program. -/
theorem parse_sound {source : String} {t : Node} (h : parse source = .ok t) :
    t.IsProgram Parse.maxNesting := by
  have hgoal : Parse.Goal.operand.Sound Parse.maxNesting [.program []] false := trivial
  have hstack : Parse.Stack Parse.maxNesting [.program []] := .program (by simp [Parse.Hole.Sound])
  exact Parse.run_sound (tokenize_shaped source) hgoal hstack h

/-- No source makes the parser read past its end. -/
theorem parse_ne_fatal (source : String) (fault : Fault) :
    parse source ≠ .error (.fatal fault) :=
  Parse.run_ne_fatal (tokenize_shaped source) _ _ fault

end HostLisp
