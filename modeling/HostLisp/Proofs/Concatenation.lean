import HostLisp.Proofs.Derivation
import HostLisp.Proofs.Tiling
import HostLisp.Run

/-!
# One program after another

Two sources with a line feed between them are one source, and it means what the two mean in turn.
Its program is the expressions of the first and then those of the second, and running it is running
the first and then, if that succeeded, the second.

Each stage has its own reason.  The scanner reads a source that it accepts to its end, and whatever
it is reading there is ended by a blank as it is by the end of the source (`Scanner.scan_append`).
The second source is then read as if by itself, only further down (`Scanner.scan_moved`).  The
parser comes to the end of the first program with nothing open but the program, and there it does
what it does at the start, with more expressions in front and larger line numbers
(`Parse.run_moved`).
-/

namespace HostLisp

open Text

/-! ## Further down -/

section Moved

variable (bytes lines : Nat)

/-- The same place, with so much more before it. -/
def Position.moved (p : Position) : Position := ⟨p.offset + bytes, p.line + lines⟩

/-- The same token, with so much more before it. -/
def Token.moved (t : Token) : Token :=
  { t with start := t.start + bytes, stop := t.stop + bytes, line := t.line + lines }

@[simp] theorem Token.kind_moved (t : Token) : (t.moved bytes lines).kind = t.kind := rfl

@[simp] theorem Token.text_moved (t : Token) : (t.moved bytes lines).text = t.text := rfl

@[simp] theorem Token.line_moved (t : Token) : (t.moved bytes lines).line = t.line + lines := rfl

@[simp] theorem Token.describe_moved (t : Token) :
    (t.moved bytes lines).describe = t.describe := rfl

@[simp] theorem Position.advance_moved (p : Position) (c : Char) :
    (p.moved bytes lines).advance c = (p.advance c).moved bytes lines := by
  simp only [moved, advance, mk.injEq]
  split <;> omega

namespace Scanner

/-- The same scanner, with so much more before the token that it reads. -/
def moved (s : Scanner) : Scanner := { s with start := s.start.moved bytes lines }

/-- What a character does, with so much more before it. -/
def movedResult (result : List Token × Scanner) : List Token × Scanner :=
  (result.1.map (Token.moved bytes lines), result.2.moved bytes lines)

theorem begin_moved (p : Position) (c : Char) :
    begin (p.moved bytes lines) c = movedResult bytes lines (begin p c) := by
  simp only [begin, Position.advance_moved, apply_ite (movedResult bytes lines)]
  simp [movedResult, Token.moved, moved, Position.moved, between]

theorem finishThen_moved (s : Scanner) (kind : TokenKind) (p : Position) (c : Char) :
    (s.moved bytes lines).finishThen kind (p.moved bytes lines) c
      = movedResult bytes lines (s.finishThen kind p c) := by
  simp only [finishThen, begin_moved]
  rfl

theorem step_moved (s : Scanner) (p : Position) (c : Char) :
    (s.moved bytes lines).step (p.moved bytes lines) c
      = movedResult bytes lines (s.step p c) := by
  -- No test that a step makes depends on a place.
  have htests : (s.moved bytes lines).shape = s.shape ∧ (s.moved bytes lines).read = s.read ∧
      (s.moved bytes lines).headKind = s.headKind ∧ (s.moved bytes lines).wordKind = s.wordKind ∧
      (s.moved bytes lines).atDefine = s.atDefine := ⟨rfl, rfl, rfl, rfl, rfl⟩
  simp only [step, htests]
  cases s.shape with
  | gap => exact begin_moved bytes lines p c
  | number digits =>
    dsimp only
    cases digits.extend? c with
    | some digits => rfl
    | none =>
      simp only [finishThen_moved, Position.advance_moved, apply_ite (movedResult bytes lines)]
      rfl
  | head | sign | quoted delimiter escaped | word | halted =>
    simp only [finishThen_moved, Position.advance_moved, apply_ite (movedResult bytes lines)]
    rfl

theorem finish_moved (s : Scanner) (p : Position) :
    (s.moved bytes lines).finish (p.moved bytes lines)
      = (s.finish p).map (Token.moved bytes lines) := by
  have htests : (s.moved bytes lines).shape = s.shape ∧
      (s.moved bytes lines).atDefine = s.atDefine := ⟨rfl, rfl⟩
  simp only [finish, htests]
  cases s.shape with
  | head =>
    simp only [apply_ite (List.map (Token.moved bytes lines))]
    rfl
  | _ => rfl

theorem scan_moved (s : Scanner) (p : Position) (cs : List Char) :
    (s.moved bytes lines).scan (p.moved bytes lines) cs
      = (s.scan p cs).map (Token.moved bytes lines) := by
  induction cs generalizing s p with
  | nil => exact finish_moved bytes lines s p
  | cons c cs ih =>
    simp only [scan, step_moved, movedResult, Position.advance_moved, ih, List.map_append]

end Scanner

end Moved

/-! ## The end of a source, and a blank -/

/-- Nothing stands behind the end of a source. -/
theorem Shaped.eq_nil_of_eof {b : Bool} {ls body rest : List Lexeme} {l : Lexeme} (h : Shaped b ls)
    (hls : ls = body ++ l :: rest) (heof : l.kind = .eof) : rest = [] := by
  induction h generalizing body with
  | eof => simp_all [List.singleton_eq_append_iff]
  | error => simp_all [List.singleton_eq_append_iff]
  | cons hfits hrest ih =>
    cases body with
    | nil =>
      obtain ⟨rfl, rfl⟩ := List.cons.inj hls
      cases hfits <;> cases heof
    | cons first body => exact ih (List.cons.inj hls).2

namespace Scanner

/-- What a scanner is reading at the end of a source that it accepts is ended by a blank as well. -/
theorem scan_ended_of_finish {s : Scanner} {p : Position}
    (h : ∀ t ∈ s.finish p, t.kind ≠ .error) (hreads : s.Reads) :
    ∃ tokens, ∀ rest, Ended rest → s.scan p rest = tokens ++ (awaiting false p).scan p rest := by
  have hrefuse : ∀ e, s.finish p ≠ [s.refuse e p] := fun e he =>
    h (s.refuse e p) (by simp [he]) rfl
  cases hshape : s.shape with
  | gap =>
    refine ⟨[], fun rest _ => ?_⟩
    cases rest <;> simp [scan, finish, step, hshape, awaiting]
  | head =>
    have hdefine : s.atDefine = true := Decidable.byContradiction fun hdefine =>
      hrefuse .unclosedHead (by simp [finish, hshape, hdefine])
    exact ⟨[s.emit s.headKind p], fun rest hrest =>
      scan_head_ended hshape (read_ne_nil_of_atDefine hdefine) hrest.stopped fun _ => hdefine⟩
  | sign =>
    exact ⟨[s.emit s.wordKind p], fun rest hrest => scan_word_ended (.inr hshape) hrest.stopped⟩
  | word =>
    exact ⟨[s.emit s.wordKind p], fun rest hrest => scan_word_ended (.inl hshape) hrest.stopped⟩
  | number digits =>
    exact ⟨[s.emit .number p], fun rest hrest => scan_number_ended hshape hrest.stopped⟩
  | quoted delimiter escaped =>
    exact absurd (by simp [finish, hshape]) (hrefuse .unclosedString)
  | halted => exact absurd hshape hreads.shape_ne_halted

/-- A source that is accepted, and what follows it after a blank. -/
theorem scan_append {s : Scanner} {p : Position} {cs : List Char}
    (h : ∀ t ∈ s.scan p cs, t.kind ≠ .error) (hreads : s.Reads) :
    ∃ tokens, ∀ rest, Ended rest →
      s.scan p (cs ++ rest) = tokens ++ (awaiting false (p.after cs)).scan (p.after cs) rest := by
  induction cs generalizing s p with
  | nil => exact scan_ended_of_finish h hreads
  | cons c cs ih =>
    simp only [scan, List.mem_append] at h
    rcases step_sound p c hreads with ⟨message, herror, -⟩ | ⟨hreads', -⟩
    · obtain ⟨t, ht, hlexeme⟩ := List.map_eq_singleton_iff.1 herror
      exact absurd (congrArg Lexeme.kind hlexeme) (h t (.inl (by simp [ht])))
    · obtain ⟨tokens, htokens⟩ := ih (fun t ht => h t (.inr ht)) hreads'
      refine ⟨(s.step p c).1 ++ tokens, fun rest hrest => ?_⟩
      simp only [List.cons_append, scan, htokens rest hrest, List.append_assoc, Position.after_cons]

end Scanner

/-- The tokens of a source that is accepted, and those of another after a line feed. -/
theorem tokenize_append {a : String} (h : ∀ t ∈ tokenize a, t.kind ≠ .error) :
    ∃ tokens eof, tokenize a = tokens ++ [eof] ∧ eof.kind = .eof ∧
      ∃ bytes, ∀ b, tokenize (a ++ "\n" ++ b)
        = tokens ++ (tokenize b).map (Token.moved bytes (1 + a.toList.count '\n')) := by
  obtain ⟨tokens, htokens⟩ := Scanner.scan_append h rfl
  have hnil := htokens [] (by simp [Ended])
  rw [List.append_nil] at hnil
  refine ⟨tokens, _, hnil, rfl, (Position.origin.after a.toList).offset + 1, fun b => ?_⟩
  have hblank : Ended ('\n' :: b.toList) := by simp [Ended, isBlank]
  have hplace : (Position.origin.after a.toList).advance '\n' = Position.origin.moved
      ((Position.origin.after a.toList).offset + 1) (1 + a.toList.count '\n') := by
    rw [Position.advance, Position.moved, Position.line_after_eq, if_pos rfl, Position.mk.injEq]
    refine ⟨?_, ?_⟩
    · simp only [Position.origin, Nat.zero_add]
      rfl
    · simp only [Position.origin]
      omega
  have hsource : (a ++ "\n" ++ b).toList = a.toList ++ '\n' :: b.toList := by simp
  rw [tokenize, hsource, htokens _ hblank, Scanner.scan_blank (by decide), hplace, tokenize,
    ← Scanner.scan_moved]
  rfl

/-! ## Reading on -/

/-- The same error, so many lines further down. -/
def SyntaxError.moved (lines : Nat) : SyntaxError → SyntaxError
  | .unexpected expected context found line => .unexpected expected context found (line + lines)
  | .notAnExpression found line => .notAnExpression found (line + lines)
  | .illegalNumber text line => .illegalNumber text (line + lines)
  | .badString text reason line => .badString text reason (line + lines)
  | .badBool text line => .badBool text (line + lines)
  | .emptyBegin line => .emptyBegin (line + lines)
  | .tooDeep limit line => .tooDeep limit (line + lines)
  | .lambdaBody line => .lambdaBody (line + lines)

/-- The same error, so many lines further down if it has a line. -/
def Error.moved (lines : Nat) : Error → Error
  | .lexical reason line => .lexical reason (line + lines)
  | .parse e => .parse (e.moved lines)
  | e => e

/-- A program with more expressions in front. -/
def Node.behind (before : List Node) : Node → Node
  | .list nodes => .list (before ++ nodes)
  | node => node

namespace Parse

section Moved

variable (lines : Nat) (before : List Node)

def Block.moved : Block → Block
  | .begin line => .begin (line + lines)
  | .call name => .call name

/-- The same open form further down, with more expressions in front of the program. -/
def Hole.moved : Hole → Hole
  | .program done => .program (done ++ before.reverse)
  | .item block done => .item (block.moved lines) done
  | .body line params => .body (line + lines) params
  | hole => hole

def Goal.moved : Goal → Goal
  | .paramsOpen line => .paramsOpen (line + lines)
  | .params line names => .params (line + lines) names
  | goal => goal

/-- What a token does further down. -/
def Step.moved : Step → Step
  | .shift goal holes => .shift (goal.moved lines) (holes.map (Hole.moved lines before))
  | .stop result => .stop (result.mapError (SyntaxError.moved lines))
  | .leave result => .leave ((result.mapError (SyntaxError.moved lines)).map (Node.behind before))

@[simp] theorem depth_moved (holes : List Hole) :
    depth (holes.map (Hole.moved lines before)) = depth holes := by
  induction holes with
  | nil => rfl
  | cons hole holes ih => cases hole <;> simp [Hole.moved, Hole.isLevel, ih]

theorem Block.node_moved (block : Block) (nodes : List Node) :
    (block.moved lines).node nodes = (block.node nodes).mapError (SyntaxError.moved lines) := by
  cases block <;> cases nodes <;> rfl

theorem leaf_moved (bytes : Nat) (t : Token) :
    leaf (t.moved bytes lines) = (leaf t).mapError (SyntaxError.moved lines) := by
  simp only [leaf, Token.kind_moved, Token.text_moved, Token.line_moved, Token.describe_moved]
  cases t.kind with
  | number => cases NumberLiteral.ofText? t.text <;> rfl
  | string => cases Quoted.decode t.text <;> rfl
  | bool =>
    simp only [apply_ite (Except.mapError (SyntaxError.moved lines))]
    rfl
  | _ => rfl

theorem fill_moved (node : Node) (holes : List Hole) :
    fill node (holes.map (Hole.moved lines before)) = (fill node holes).moved lines before := by
  cases holes with
  | nil => rfl
  | cons hole holes =>
    cases hole with
    | body line params => cases node <;> rfl
    | _ => rfl

theorem fillWith_moved (node : Except SyntaxError Node) (holes : List Hole) :
    fillWith (node.mapError (SyntaxError.moved lines)) (holes.map (Hole.moved lines before))
      = (fillWith node holes).moved lines before := by
  cases node with
  | error e => rfl
  | ok node => exact fill_moved lines before node holes

variable (limit bytes : Nat)

theorem expressionStep_moved (holes : List Hole) (t : Token) :
    expressionStep limit (holes.map (Hole.moved lines before)) (t.moved bytes lines)
      = (expressionStep limit holes t).moved lines before := by
  simp only [expressionStep, depth_moved, Token.kind_moved, leaf_moved, fillWith_moved,
    apply_ite (Step.moved lines before)]
  rfl

theorem operandStep_moved (holes : List Hole) (t : Token) :
    operandStep limit (holes.map (Hole.moved lines before)) (t.moved bytes lines)
      = (operandStep limit holes t).moved lines before := by
  have hexpression := expressionStep_moved lines before limit bytes holes t
  cases holes with
  | nil => exact hexpression
  | cons hole holes =>
    cases hole with
    | program done =>
      simp only [operandStep, List.map_cons, Hole.moved, Token.kind_moved,
        apply_ite (Step.moved lines before), ← hexpression, List.reverse_append,
        List.reverse_reverse]
      rfl
    | item block done =>
      simp only [operandStep, List.map_cons, Hole.moved, Token.kind_moved, Block.node_moved,
        fillWith_moved, apply_ite (Step.moved lines before), ← hexpression]
      cases block <;> rfl
    | body line params =>
      simp only [operandStep, List.map_cons, Hole.moved, Token.kind_moved,
        apply_ite (Step.moved lines before)]
      rfl
    | _ => exact hexpression

theorem headStep_moved (holes : List Hole) (t : Token) :
    headStep (holes.map (Hole.moved lines before)) (t.moved bytes lines)
      = (headStep holes t).moved lines before := by
  simp only [headStep, Token.kind_moved, Token.text_moved, Token.line_moved]
  cases t.kind with
  | call =>
    dsimp only
    split <;> rfl
  | _ => rfl

/-- A token does further down what it does further up. -/
theorem step_moved (goal : Goal) (holes : List Hole) (t : Token) :
    step limit (goal.moved lines) (holes.map (Hole.moved lines before)) (t.moved bytes lines)
      = (step limit goal holes t).moved lines before := by
  cases goal with
  | operand => exact operandStep_moved lines before limit bytes holes t
  | head => exact headStep_moved lines before bytes holes t
  | target binder =>
    simp only [step, Goal.moved, Token.kind_moved, Token.text_moved,
      apply_ite (Step.moved lines before)]
    rfl
  | paramsOpen line =>
    simp only [step, Goal.moved, Token.kind_moved, apply_ite (Step.moved lines before)]
    rfl
  | params line names =>
    simp only [step, Goal.moved, Token.kind_moved, Token.text_moved]
    cases t.kind <;> rfl
  | close context node =>
    simp only [step, Goal.moved, Token.kind_moved, fill_moved,
      apply_ite (Step.moved lines before)]
    rfl

end Moved

/-- What is read in the end, further down. -/
def movedResult (lines : Nat) (before : List Node) (result : Except Error Node) :
    Except Error Node :=
  (result.mapError (Error.moved lines)).map (Node.behind before)

/-- A run in the middle of a program, further down. -/
theorem run_moved (lines : Nat) (before : List Node) (limit bytes : Nat) {goal : Goal}
    {holes : List Hole} {read : List Token} (h : ReadFrom goal holes read) (ts : List Token) :
    (run limit (goal.moved lines) (holes.map (Hole.moved lines before))
        (ts.map (Token.moved bytes lines))).1
      = movedResult lines before (run limit goal holes ts).1 := by
  induction ts generalizing goal holes read with
  | nil => rfl
  | cons t ts ih =>
    have htraces := step_traces limit h t
    rw [List.map_cons, run, run, Token.kind_moved]
    split
    case isTrue => rfl
    case isFalse =>
      rw [step_moved]
      cases hstep : step limit goal holes t with rw [hstep] at htraces
      | shift goal' holes' => exact ih htraces
      | stop result =>
        cases result with
        | ok node => exact absurd rfl (htraces node)
        | error e => rfl
      | leave result => cases result <;> rfl

end Parse

/-- A source that is accepted, and another after a line feed. -/
theorem parse_append {a : String} {before : List Node} (h : parse a = .ok (.list before))
    (b : String) : parse (a ++ "\n" ++ b)
      = Parse.movedResult (1 + a.toList.count '\n') before (parse b) := by
  obtain ⟨⟨body, eof, rest, hsplit, heof, hinner, hbody⟩, hfits⟩ := Parse.program_eq_ok_iff.1 h
  have hrest : rest = [] := by
    have hlexemes : (tokenize a).map Token.lexeme
        = body.map Token.lexeme ++ eof.lexeme :: rest.map Token.lexeme := by simp [hsplit]
    exact List.map_eq_nil_iff.1 ((tokenize_shaped a).eq_nil_of_eof hlexemes heof)
  have hclean : ∀ t ∈ tokenize a, t.kind ≠ .error := by
    rw [hsplit, hrest]
    refine List.forall_mem_append.2 ⟨fun t ht => (hinner t ht).2, ?_⟩
    simp [heof]
  obtain ⟨tokens, eof', htokens, -, bytes, happend⟩ := tokenize_append hclean
  have hbody_eq : tokens = body := by
    rw [hsplit, hrest] at htokens
    exact (List.append_inj_left' htokens rfl).symm
  have hprogram := (Parse.follows_program Parse.maxNesting hbody []).leads hfits
  rw [parse, happend b, hbody_eq, Parse.program, hprogram, List.append_nil]
  exact Parse.run_moved _ before Parse.maxNesting bytes Parse.readFrom_start (tokenize b)

/-! ## Running on -/

theorem Exec.nodes_append {ω : Type} (xs ys : List Node) :
    (nodes (xs ++ ys) : Exec ω Unit) = nodes xs >>= fun _ => nodes ys := by
  induction xs with
  | nil => simp [nodes]
  | cons x xs ih => simp [nodes, ih]

theorem execSource_of_parse {ω : Type} {source : String} {nodes : List Node}
    (h : parse source = .ok (.list nodes)) :
    (execSource source : Exec ω Unit) = Exec.nodes nodes := by
  rw [execSource, h]
  rfl

/-- Programs compose by concatenation.  If two sources are programs, then so are the two with a line
feed between them: it has the expressions of both, and running it leaves what running the first and
then, unless that fails, the second leaves.  If the second source is none, its error is the error
of both, as many lines further down as the first one takes. -/
theorem programs_concatenate {a : String} {ca : List Node} (ha : parse a = .ok (.list ca))
    (b : String) :
    (∀ cb, parse b = .ok (.list cb) →
      parse (a ++ "\n" ++ b) = .ok (.list (ca ++ cb)) ∧
      ∀ (ω : Type) (console : Console ω), execSource (a ++ "\n" ++ b) console =
        match execSource a console with
        | .ok _ console => execSource b console
        | .error e console => .error e console) ∧
    (∀ e, parse b = .error e →
      parse (a ++ "\n" ++ b) = .error (e.moved (1 + a.toList.count '\n'))) := by
  have happend := parse_append ha b
  refine ⟨fun cb hb => ?_, fun e hb => ?_⟩
  · rw [hb] at happend
    refine ⟨happend, fun ω console => ?_⟩
    rw [execSource_of_parse happend, execSource_of_parse ha, execSource_of_parse hb,
      Exec.nodes_append]
    simp only [bind, EStateM.bind]
    cases Exec.nodes ca console <;> rfl
  · rw [hb] at happend
    exact happend

/-- The first source ends in a sign, which is not taken for that of the number on the next line. -/
theorem sign_before_number_concatenates :
    parse "7\n-" = .ok (.list [.number ⟨"7", 7⟩, .var "-"]) ∧
    parse ("7\n-" ++ "\n" ++ "5") =
      .ok (.list ([.number ⟨"7", 7⟩, .var "-"] ++ [.number ⟨"5", 5⟩])) ∧
    parse ("7\n-" ++ "\n" ++ "\n)") = .error (.parse (.notAnExpression ") => )" 4)) := by
  have hfirst : parse "7\n-" = .ok (.list [.number ⟨"7", 7⟩, .var "-"]) := by rfl
  have hsecond : parse "5" = .ok (.list [.number ⟨"5", 5⟩]) := by rfl
  have hwrong : parse "\n)" = .error (.parse (.notAnExpression ") => )" 2)) := by rfl
  exact ⟨hfirst, ((programs_concatenate hfirst "5").1 _ hsecond).1,
    (programs_concatenate hfirst "\n)").2 _ hwrong⟩

end HostLisp
