import HostLisp.Proofs.Grammar

/-!
# Recursive descent with one token of look-ahead

Another way to read trees: a procedure for each form, which calls the procedures for its parts.  A
*reader* keeps the tokens.  One of them may have been looked at without being taken, and waits in a
slot of its own, where a token that was taken can also be handed back, as long as the slot is empty.
The reader counts the expressions that are being read, up to the nesting limit, and each procedure
puts the count back when it is done, whether it succeeds or fails.

Forms nest in forms, and some have any number of parts.  So there are *rounds*, for how deep the
procedures call one another and how often they repeat themselves, and a procedure whose rounds do
not suffice has no outcome.

Nothing in the procedures says that there is an outcome, that the slot is empty when it has to be,
or that the count is right.  All this follows from a comparison with `Parse.run`, which has neither
a slot nor a count but a stack of holes: with more rounds than tokens, whatever a procedure does
from a reader, the machine does from the tokens that are pending there (`Simulates`).  A procedure
that is done has brought the machine to the state behind its form.  To say where a token waits that
the machine leaves, outcomes have the slot and the unread tokens apart (`Halt`).
-/

namespace HostLisp.Descent

open Parse

/-! ## Readers -/

/-- A reader of tokens. -/
structure Reader where
  /-- The token that was looked at or handed back. -/
  lookahead : Option Token
  unread : List Token
  /-- How many expressions are being read. -/
  depth : Nat

namespace Reader

/-- A reader that has not read anything. -/
def new (tokens : List Token) : Reader := ⟨none, tokens, 0⟩

/-- The tokens that are still to be taken. -/
def pending (r : Reader) : List Token := r.lookahead.toList ++ r.unread

/-- What waits in the slot was looked at, so it is no `error` token. -/
def Clean (r : Reader) : Prop := ∀ t, r.lookahead = some t → t.kind ≠ .error

theorem pending_some (t : Token) (rest : List Token) (depth : Nat) :
    (⟨some t, rest, depth⟩ : Reader).pending = t :: rest := rfl

theorem clean_of_none {rest : List Token} {depth : Nat} : (⟨none, rest, depth⟩ : Reader).Clean := by
  intro t ht
  cases ht

theorem clean_of_some {t : Token} {rest : List Token} {depth : Nat} (h : t.kind ≠ .error) :
    (⟨some t, rest, depth⟩ : Reader).Clean := by
  intro t' ht
  cases ht
  exact h

/-- One more expression is being read. -/
def enter (r : Reader) : Reader := { r with depth := r.depth + 1 }

/-- One expression less is being read. -/
def leave (r : Reader) : Reader := { r with depth := r.depth - 1 }

end Reader

/-- Why reading fails. -/
inductive Failure where
  | reported (e : Error)
  /-- A token was handed back while another one was waiting. -/
  | slotTaken

/-- A procedure that reads tokens.  It may have no outcome. -/
abbrev Reading (α : Type) := ExceptT Failure (StateT Reader Option) α

section Procedures

variable {α : Type}

/-- Has no outcome. -/
def stuck : Reading α := fun _ => none

/-- Fails with a syntax error. -/
def refuse (e : SyntaxError) : Reading α := throw (.reported (.parse e))

/-- Takes an unread token.  An `error` token is taken too, but its message is the result. -/
def pull : Reading Token := do
  match (← get).unread with
  | [] => throw (.reported (.fatal .tokensClosed))
  | t :: rest =>
    modify ({ · with unread := rest })
    if t.kind = .error then throw (.reported (.lexical t.text t.line)) else pure t

/-- Takes the next token. -/
def next : Reading Token := do
  match (← get).lookahead with
  | some t =>
    modify ({ · with lookahead := none })
    pure t
  | none => pull

/-- Looks at the next token and leaves it in the slot. -/
def peek : Reading Token := do
  let t ← next
  modify ({ · with lookahead := some t })
  pure t

/-- Hands a token back. -/
def backup (t : Token) : Reading Unit := do
  match (← get).lookahead with
  | some _ => throw .slotTaken
  | none => modify ({ · with lookahead := some t })

/-- Takes the next token, which has to be of a given kind. -/
def expect (kind : TokenKind) (context : String) : Reading Token := do
  let t ← next
  if t.kind = kind then pure t else refuse (unexpected kind context t)

/-- Reads an expression that is a single token of a given kind. -/
def literal (kind : TokenKind) (context : String) : Reading Node := do
  let t ← expect kind context
  match leaf t with
  | .ok node => pure node
  | .error e => refuse e

/-- Reads the parameters of a `lambda` after those in `names`, last one first, and the parenthesis
behind them. -/
def parameters : Nat → List String → Reading (List String)
  | 0, _ => stuck
  | rounds + 1, names => do
    let t ← next
    match t.kind with
    | .call | .word => parameters rounds (t.text :: names)
    | .rightParen => pure names.reverse
    | _ => refuse (unexpected .word "lambda parameters" t)

section Forms

-- How forms inside are read, from behind their opening parentheses.
variable (inner : Reading Node)

/-- Reads one form in parentheses. -/
def call : Reading Node := do
  let _ ← expect .leftParen "call"
  inner

/-- Reads one expression, whatever is around it. -/
def unguarded : Reading Node := do
  let t ← peek
  match t.kind with
  | .leftParen => call inner
  | .number => literal .number "number"
  | .string => literal .string "string"
  | .bool => literal .bool "bool"
  | .word => literal .word "variable"
  | _ =>
    let t ← next
    refuse (.notAnExpression t.describe t.line)

/-- Reads one expression. -/
def expression : Reading Node := do
  if maxNesting ≤ (← get).depth then
    let t ← peek
    refuse (.tooDeep maxNesting t.line)
  else
    -- The count goes down again after a failure too.
    (do
      modify Reader.enter
      let node ← (unguarded inner).run
      modify Reader.leave
      pure node : StateT Reader Option (Except Failure Node))

/-- Reads the name and the value that a form binds. -/
def binding (binder : Binder) : Reading Node := do
  let name ← expect .word binder.label
  let value ← expression inner
  let _ ← expect .rightParen binder.label
  pure (binder.node name.text value)

/-- Reads the three parts of an `if`. -/
def conditional : Reading Node := do
  let test ← expression inner
  let conseq ← expression inner
  let alt ← expression inner
  let _ ← expect .rightParen "if"
  pure (.cond test conseq alt)

/-- Reads the parameters and the body of a `lambda`, whose first word stands on `line`. -/
def lambda (rounds line : Nat) : Reading Node := do
  let _ ← expect .leftParen "lambda"
  let params ← parameters rounds []
  let t ← peek
  if t.kind = .leftParen then
    match ← call inner with
    | .call name args =>
      let _ ← expect .rightParen "lambda"
      pure (.lambda params name args)
    | _ => refuse (.lambdaBody line)
  else refuse (.lambdaBody line)

/-- Reads expressions up to a closing parenthesis, after those in `done`, last one first. -/
def untilClose (context : String) : Nat → List Node → Reading (List Node)
  | 0, _ => stuck
  | rounds + 1, done => do
    let t ← next
    match t.kind with
    | .rightParen => pure done.reverse
    | .eof => refuse (unexpected .rightParen context t)
    | _ =>
      backup t
      let node ← expression inner
      untilClose context rounds (node :: done)

end Forms

/-- Reads what is behind the opening parenthesis of a form. -/
def form : Nat → Reading Node
  | 0 => stuck
  | rounds + 1 => do
    let head ← next
    match head.kind with
    | .define => binding (form rounds) .define
    | .call =>
      match head.text with
      | "set" => binding (form rounds) .assign
      | "if" => conditional (form rounds)
      | "begin" =>
        let body ← untilClose (form rounds) "begin" rounds []
        if body.isEmpty then refuse (.emptyBegin head.line) else pure (.begin body)
      | "lambda" => lambda (form rounds) rounds head.line
      | name =>
        let args ← untilClose (form rounds) "call" rounds []
        pure (.call name args)
    | _ => refuse (unexpected .call "call" head)

/-- Reads expressions up to the end of the source, after those in `done`, last one first. -/
def program : Nat → List Node → Reading Node
  | 0, _ => stuck
  | rounds + 1, done => do
    let t ← peek
    if t.kind = .eof then pure (.list done.reverse)
    else
      let node ← expression (form rounds)
      program rounds (node :: done)

end Procedures

/-! ## Where reading halts -/

/-- A result, with the token that is left in the slot and the unread ones. -/
structure Halt (α : Type) where
  result : Except Error α
  lookahead : Option Token
  unread : List Token

/-- The halt as an outcome of the machine, which does not say where the pending tokens wait. -/
def Halt.merged {α : Type} (h : Halt α) : Outcome α := (h.result, h.lookahead.toList ++ h.unread)

/-- Takes the next token, if there is one to take, and goes on. -/
def first {α : Type} (k : Token → List Token → Halt α) : List Token → Halt α
  | [] => ⟨.error (.fatal .tokensClosed), none, []⟩
  | t :: rest =>
    if t.kind = .error then ⟨.error (.lexical t.text t.line), none, rest⟩ else k t rest

/-- Where `Parse.run` halts. -/
def halt (limit : Nat) (goal : Goal) (holes : List Hole) : List Token → Halt Node
  | [] => ⟨.error (.fatal .tokensClosed), none, []⟩
  | t :: rest =>
    if t.kind = .error then ⟨.error (.lexical t.text t.line), none, rest⟩
    else
      match step limit goal holes t with
      | .shift goal holes => halt limit goal holes rest
      | .stop result => ⟨result.mapError .parse, none, rest⟩
      | .leave result => ⟨result.mapError .parse, some t, rest⟩

/-- Where reading halts after a step that has taken its token. -/
def resume (limit : Nat) : Step → List Token → Halt Node
  | .shift goal holes, rest => halt limit goal holes rest
  | .stop result, rest | .leave result, rest => ⟨result.mapError .parse, none, rest⟩

/-- Where reading halts after a step. -/
def proceed (limit : Nat) (s : Step) (t : Token) (rest : List Token) : Halt Node :=
  match s with
  | .leave result => ⟨result.mapError .parse, some t, rest⟩
  | s => resume limit s rest

section Halt

variable {limit : Nat} {goal : Goal} {holes : List Hole} {t : Token} {rest : List Token}

/-- Either there is no token to take, or reading goes on with it. -/
theorem first_cases (ts : List Token) :
    (∃ e rest, ∀ {α : Type} (k : Token → List Token → Halt α),
      first k ts = ⟨.error e, none, rest⟩) ∨
    ∃ t rest, ts = t :: rest ∧ t.kind ≠ .error ∧
      ∀ {α : Type} (k : Token → List Token → Halt α), first k ts = k t rest := by
  cases ts with
  | nil => exact .inl ⟨_, _, fun _ => rfl⟩
  | cons t rest =>
    by_cases hkind : t.kind = .error
    · exact .inl ⟨_, _, fun k => if_pos hkind⟩
    · exact .inr ⟨t, rest, rfl, hkind, fun k => if_neg hkind⟩

theorem halt_eq_first (limit : Nat) (goal : Goal) (holes : List Hole) :
    halt limit goal holes = first fun t rest => proceed limit (step limit goal holes t) t rest := by
  funext ts
  cases ts with
  | nil => rfl
  | cons t rest =>
    rw [halt, first]
    split
    · rfl
    · cases step limit goal holes t <;> rfl

/-- A finished node takes its last token in any case. -/
theorem proceed_fill (node : Node) :
    proceed limit (fill node holes) t rest = resume limit (fill node holes) rest := by
  unfold fill
  split
  case h_8 => split <;> rfl
  all_goals rfl

theorem proceed_fillWith (node : Except SyntaxError Node) :
    proceed limit (fillWith node holes) t rest = resume limit (fillWith node holes) rest := by
  cases node with
  | ok node => exact proceed_fill node
  | error e => rfl

theorem run_eq_halt (limit : Nat) (goal : Goal) (holes : List Hole) (ts : List Token) :
    run limit goal holes ts = (halt limit goal holes ts).merged := by
  induction ts generalizing goal holes with
  | nil => rfl
  | cons t rest ih =>
    rw [run, halt]
    split
    · rfl
    · cases step limit goal holes t with
      | shift goal holes => exact ih goal holes
      | stop | leave => rfl

end Halt

/-! ## Single tokens -/

section Single

variable {α β : Type} {r r' : Reader} {t : Token} {rest : List Token}

theorem bind_of_ok {x : Reading α} {a : α} (h : x r = some (.ok a, r')) (k : α → Reading β) :
    (x >>= k) r = k a r' := by
  change (x r).bind _ = _
  rw [h]
  rfl

theorem bind_of_error {x : Reading α} {e : Failure} (h : x r = some (.error e, r'))
    (k : α → Reading β) : (x >>= k) r = some (.error e, r') := by
  change (x r).bind _ = _
  rw [h]
  rfl

/-- The outcome of a procedure that halts so, with the count of expressions that it leaves. -/
def Halt.outcome (h : Halt α) (depth : Nat) : Option (Except Failure α × Reader) :=
  some (h.result.mapError .reported, ⟨h.lookahead, h.unread, depth⟩)

/-- The slot does not matter for taking a token. -/
theorem next_eq (h : r.Clean) :
    next r = (first (fun t rest => ⟨.ok t, none, rest⟩) r.pending).outcome r.depth := by
  obtain ⟨lookahead, unread, depth⟩ := r
  cases lookahead with
  | some t =>
    have hkind : t.kind ≠ .error := h t rfl
    change _ = Halt.outcome (first _ (t :: unread)) depth
    rw [first, if_neg hkind]
    rfl
  | none =>
    cases unread with
    | nil => rfl
    | cons t rest =>
      change (if t.kind = .error then throw _ else pure t : Reading Token) ⟨none, rest, depth⟩ =
        Halt.outcome (first _ (t :: rest)) depth
      rw [first]
      split <;> rfl

/-- A procedure that takes or looks at a token and goes on. -/
theorem outcome_of_first {x : Reading Token} {slot : Token → Option Token}
    {k : Token → List Token → Halt α} {y : Token → Reading α}
    (hx : x r = (first (fun t rest => ⟨.ok t, slot t, rest⟩) r.pending).outcome r.depth)
    (hy : ∀ t rest, r.pending = t :: rest → t.kind ≠ .error →
      y t ⟨slot t, rest, r.depth⟩ = (k t rest).outcome r.depth) :
    (x >>= y) r = (first k r.pending).outcome r.depth := by
  rcases first_cases r.pending with ⟨e, rest, hfirst⟩ | ⟨t, rest, hp, hkind, hfirst⟩
  · rw [hfirst] at hx ⊢
    exact bind_of_error hx y
  · rw [hfirst] at hx ⊢
    exact (bind_of_ok hx y).trans (hy t rest hp hkind)

theorem peek_eq (h : r.Clean) :
    peek r = (first (fun t rest => ⟨.ok t, some t, rest⟩) r.pending).outcome r.depth :=
  outcome_of_first (next_eq h) fun _ _ _ _ => rfl

/-- Where taking a token of a given kind halts. -/
def expectHalt (kind : TokenKind) (context : String) : List Token → Halt Token :=
  first fun t rest =>
    ⟨if t.kind = kind then .ok t else .error (.parse (unexpected kind context t)), none, rest⟩

theorem expect_eq (kind : TokenKind) (context : String) (h : r.Clean) :
    expect kind context r = (expectHalt kind context r.pending).outcome r.depth := by
  refine outcome_of_first (next_eq h) fun t rest _ _ => ?_
  by_cases hkind : t.kind = kind
  · rw [if_pos hkind, if_pos hkind]
    rfl
  · rw [if_neg hkind, if_neg hkind]
    rfl

/-- A token that was looked at and is of the right kind. -/
theorem expect_of_slot {kind : TokenKind} (h : t.kind = kind) (context : String) {depth : Nat} :
    expect kind context ⟨some t, rest, depth⟩ = some (.ok t, ⟨none, rest, depth⟩) := by
  change (if t.kind = kind then pure t else _ : Reading Token) ⟨none, rest, depth⟩ = _
  rw [if_pos h]
  rfl

end Single

/-! ## Procedures and the machine -/

/-- From the reader the procedure does the same as the machine, which halts as in `whole`.  Either
it fails, and the machine has halted there; or it succeeds with an empty slot and at most `bound`
unread tokens, and the machine goes on as in `k`.  The count is put back either way. -/
inductive Simulates {α : Type} (bound : Nat) (x : Reading α) (r : Reader) (whole : Halt Node)
    (k : α → List Token → Halt Node) : Prop where
  | ok {a : α} {rest : List Token} (h : x r = some (.ok a, ⟨none, rest, r.depth⟩))
    (hbound : rest.length ≤ bound) (hwhole : whole = k a rest)
  | error {e : Error} {lookahead : Option Token} {rest : List Token}
    (h : x r = some (.error (.reported e), ⟨lookahead, rest, r.depth⟩))
    (hwhole : whole = ⟨.error e, lookahead, rest⟩)

namespace Simulates

variable {α β : Type} {bound bound' : Nat} {r : Reader} {whole : Halt Node}
  {k : α → List Token → Halt Node} {k' : β → List Token → Halt Node}

/-- What comes first may leave the slot as it likes. -/
theorem after {x : Reading α} {y : α → Reading β} {a : α} {lookahead : Option Token}
    {rest : List Token} (hx : x r = some (.ok a, ⟨lookahead, rest, r.depth⟩))
    (h : Simulates bound (y a) ⟨lookahead, rest, r.depth⟩ whole k') :
    Simulates bound (x >>= y) r whole k' := by
  cases h with
  | ok h hbound hwhole => exact .ok ((bind_of_ok hx y).trans h) hbound hwhole
  | error h hwhole => exact .error ((bind_of_ok hx y).trans h) hwhole

theorem bind {x : Reading α} {y : α → Reading β} (h : Simulates bound x r whole k)
    (hy : ∀ a rest, rest.length ≤ bound →
      Simulates bound' (y a) ⟨none, rest, r.depth⟩ (k a rest) k') :
    Simulates bound' (x >>= y) r whole k' := by
  cases h with
  | error h hwhole => exact .error (bind_of_error h y) hwhole
  | ok h hbound hwhole =>
    rw [hwhole]
    exact after h (hy _ _ hbound)

/-- A procedure that begins with a token. -/
theorem of_first {x : Reading Token} {slot : Token → Option Token}
    {f : Token → List Token → Halt Node} {y : Token → Reading α}
    (hx : x r = (first (fun t rest => ⟨.ok t, slot t, rest⟩) r.pending).outcome r.depth)
    (hy : ∀ t rest, r.pending = t :: rest → t.kind ≠ .error →
      Simulates bound (y t) ⟨slot t, rest, r.depth⟩ (f t rest) k) :
    Simulates bound (x >>= y) r (first f r.pending) k := by
  rcases first_cases r.pending with ⟨e, rest, hfirst⟩ | ⟨t, rest, hp, hkind, hfirst⟩
  · rw [hfirst] at hx ⊢
    exact .error (bind_of_error hx y) rfl
  · rw [hfirst] at hx ⊢
    exact after hx (hy t rest hp hkind)

theorem next {f : Token → List Token → Halt Node} {y : Token → Reading α} (hr : r.Clean)
    (hy : ∀ t rest, r.pending = t :: rest → t.kind ≠ .error →
      Simulates bound (y t) ⟨none, rest, r.depth⟩ (f t rest) k) :
    Simulates bound (next >>= y) r (first f r.pending) k :=
  of_first (next_eq hr) hy

theorem peek {f : Token → List Token → Halt Node} {y : Token → Reading α} (hr : r.Clean)
    (hy : ∀ t rest, r.pending = t :: rest → t.kind ≠ .error →
      Simulates bound (y t) ⟨some t, rest, r.depth⟩ (f t rest) k) :
    Simulates bound (peek >>= y) r (first f r.pending) k :=
  of_first (peek_eq hr) hy

theorem expect {kind : TokenKind} {context : String} {f : Token → List Token → Halt Node}
    {y : Token → Reading α} (hr : r.Clean)
    (hrefuse : ∀ t rest, t.kind ≠ kind →
      f t rest = ⟨.error (.parse (unexpected kind context t)), none, rest⟩)
    (hy : ∀ t rest, r.pending = t :: rest → t.kind = kind →
      Simulates bound (y t) ⟨none, rest, r.depth⟩ (f t rest) k) :
    Simulates bound (expect kind context >>= y) r (first f r.pending) k := by
  unfold Descent.expect
  rw [bind_assoc]
  refine next hr fun t rest hp _ => ?_
  by_cases hkind : t.kind = kind
  · rw [if_pos hkind, pure_bind]
    exact hy t rest hp hkind
  · rw [if_neg hkind, hrefuse t rest hkind]
    exact .error rfl rfl

end Simulates

/-! ### Forms -/

/-- The machine goes on with a finished node. -/
def filled (limit : Nat) (holes : List Hole) (node : Node) (rest : List Token) : Halt Node :=
  resume limit (fill node holes) rest

/-- The machine reads an expression. -/
def expressionHalt (limit : Nat) (holes : List Hole) : List Token → Halt Node :=
  first fun t rest => proceed limit (expressionStep limit holes t) t rest

section Forms

variable {limit bound : Nat} {holes : List Hole} {rest : List Token} {count rounds n : Nat}
  {inner : Reading Node}

theorem halt_operand (h : ∀ t, operandStep limit holes t = expressionStep limit holes t) :
    halt limit .operand holes = expressionHalt limit holes := by
  rw [halt_eq_first, expressionHalt]
  simp only [step, h]

theorem Simulates.mono {α : Type} {bound' : Nat} {x : Reading α} {r : Reader} {whole : Halt Node}
    {k : α → List Token → Halt Node} (h : Simulates bound x r whole k) (hbound : bound ≤ bound') :
    Simulates bound' x r whole k := by
  cases h with
  | ok h hrest hwhole => exact .ok h (Nat.le_trans hrest hbound) hwhole
  | error h hwhole => exact .error h hwhole

/-- The procedure reads an expression as the machine does, as long as there are fewer than `n`
tokens.  The reader counts the levels that the machine sees in its holes, up to where its limit
differs from the one of the machine. -/
def ExpressionReads (n : Nat) (x : Reading Node) : Prop :=
  ∀ (r : Reader) (limit : Nat) (holes : List Hole), r.Clean → r.pending.length < n →
    depth holes + maxNesting = r.depth + limit →
    Simulates (r.pending.length - 1) x r (expressionHalt limit holes r.pending)
      (filled limit holes)

/-- The same for what is behind an opening parenthesis, which is one level deeper. -/
def FormReads (n : Nat) (x : Reading Node) : Prop :=
  ∀ (r : Reader) (limit : Nat) (holes : List Hole), r.Clean → r.pending.length < n →
    depth holes + 1 + maxNesting = r.depth + limit →
    Simulates (r.pending.length - 1) x r (halt limit .head holes r.pending)
      (filled limit holes)

/-- The end of a form. -/
theorem closes (context : String) (node : Node) (hbound : rest.length ≤ bound + 1) :
    Simulates bound (expect .rightParen context >>= fun _ => pure node) ⟨none, rest, count⟩
      (halt limit (.close context node) holes rest) (filled limit holes) := by
  rw [halt_eq_first]
  refine .expect Reader.clean_of_none (fun t rest hkind => ?_) fun t rest' hp hkind => ?_
  · simp only [step, if_neg hkind]
    rfl
  · obtain rfl : rest = t :: rest' := hp
    simp only [step, if_pos hkind, proceed_fill, List.length_cons] at hbound ⊢
    exact .ok rfl (Nat.le_of_succ_le_succ hbound) rfl

section Parts

variable (hexpression : ExpressionReads n (expression inner))
include hexpression

/-- An expression that is the next part of a form. -/
theorem ExpressionReads.part (hrest : rest.length < n)
    (hstep : ∀ t, operandStep limit holes t = expressionStep limit holes t)
    (hdepth : depth holes + maxNesting = count + limit) :
    Simulates (rest.length - 1) (expression inner) ⟨none, rest, count⟩
      (halt limit .operand holes rest) (filled limit holes) := by
  rw [halt_operand hstep]
  exact hexpression ⟨none, rest, count⟩ limit holes Reader.clean_of_none hrest hdepth

theorem binding_reads (binder : Binder) (hrest : rest.length < n)
    (hdepth : depth holes + 1 + maxNesting = count + limit) :
    Simulates (rest.length - 1) (binding inner binder) ⟨none, rest, count⟩
      (halt limit (.target binder) holes rest) (filled limit holes) := by
  rw [binding, halt_eq_first]
  refine .expect Reader.clean_of_none (fun t rest hkind => ?_) fun t rest' hp hkind => ?_
  · simp only [step, if_neg hkind]
    rfl
  · obtain rfl : rest = t :: rest' := hp
    simp only [step, if_pos hkind, List.length_cons] at hrest ⊢
    refine (hexpression.part (by omega) (fun _ => rfl) ?_).bind ?_
    · simpa [Hole.isLevel] using hdepth
    · exact fun value rest'' hbound => closes binder.label _ (by omega)

theorem conditional_reads (hrest : rest.length < n)
    (hdepth : depth holes + 1 + maxNesting = count + limit) :
    Simulates (rest.length - 1) (conditional inner) ⟨none, rest, count⟩
      (halt limit .operand (.test :: holes) rest) (filled limit holes) := by
  have hpart : ∀ (hole : Hole) {rest : List Token}, hole.isLevel = true → rest.length < n →
      (∀ t, operandStep limit (hole :: holes) t = expressionStep limit (hole :: holes) t) →
      Simulates (rest.length - 1) (expression inner) ⟨none, rest, count⟩
        (halt limit .operand (hole :: holes) rest) (filled limit (hole :: holes)) := by
    intro hole rest hlevel hrest hstep
    exact hexpression.part hrest hstep (by simpa [hlevel] using hdepth)
  rw [conditional]
  refine (hpart .test rfl hrest fun _ => rfl).bind fun test rest₁ h₁ => ?_
  refine (hpart (.conseq test) rfl (by omega) fun _ => rfl).bind fun conseq rest₂ h₂ => ?_
  refine (hpart (.alt test conseq) rfl (by omega) fun _ => rfl).bind fun alt rest₃ h₃ => ?_
  exact closes "if" _ (by omega)

/-- The expressions of a block.  Each of them leaves fewer tokens, so the rounds suffice. -/
theorem untilClose_reads (block : Block) (done : List Node) (hrounds : rest.length < rounds)
    (hrest : rest.length < n) (hdepth : depth holes + 1 + maxNesting = count + limit) :
    Simulates (rest.length - 1) (untilClose inner block.label rounds done) ⟨none, rest, count⟩
      (halt limit .operand (.item block done :: holes) rest)
      fun nodes rest => resume limit (fillWith (block.node nodes) holes) rest := by
  induction rounds generalizing rest done with
  | zero => exact absurd hrounds (Nat.not_lt_zero _)
  | succ rounds ih =>
    rw [untilClose, halt_eq_first]
    refine .next Reader.clean_of_none fun t rest' hp herror => ?_
    obtain rfl : rest = t :: rest' := hp
    rw [List.length_cons] at hrounds hrest
    rw [List.length_cons, Nat.add_sub_cancel]
    split
    case h_1 hkind =>
      simp only [step, operandStep, hkind, if_true, proceed_fillWith]
      exact .ok rfl (Nat.le_refl _) rfl
    case h_2 hkind =>
      simp only [step, operandStep, hkind, reduceCtorEq, if_false, if_true]
      exact .error rfl rfl
    case h_3 hclose heof =>
      -- The slot was emptied by taking the token that is handed back.
      have hbackup : backup t ⟨none, rest', count⟩ = some (.ok (), ⟨some t, rest', count⟩) := rfl
      have hread := hexpression ⟨some t, rest', count⟩ limit (.item block done :: holes)
        (Reader.clean_of_some herror) hrest (by simpa [Hole.isLevel] using hdepth)
      rw [Reader.pending_some, expressionHalt, first, if_neg herror] at hread
      simp only [step, operandStep, if_neg hclose, if_neg heof]
      refine .after hbackup (hread.bind fun node rest'' hbound => ?_)
      rw [List.length_cons, Nat.add_sub_cancel] at hbound
      exact (ih (node :: done) (by omega) (by omega)).mono (by omega)

end Parts

/-- The parameters of a `lambda`. -/
theorem parameters_reads (line : Nat) (names : List String) (hrounds : rest.length < rounds) :
    Simulates (rest.length - 1) (parameters rounds names) ⟨none, rest, count⟩
      (halt limit (.params line names) holes rest)
      fun names rest => halt limit .operand (.body line names :: holes) rest := by
  induction rounds generalizing rest names with
  | zero => exact absurd hrounds (Nat.not_lt_zero _)
  | succ rounds ih =>
    rw [parameters, halt_eq_first]
    refine .next Reader.clean_of_none fun t rest' hp _ => ?_
    obtain rfl : rest = t :: rest' := hp
    rw [List.length_cons] at hrounds
    rw [List.length_cons, Nat.add_sub_cancel]
    cases hkind : t.kind with
    | call | word =>
      simp only [step, hkind]
      exact (ih _ (by omega)).mono (Nat.sub_le _ _)
    | rightParen =>
      simp only [step, hkind]
      exact .ok rfl (Nat.le_refl _) rfl
    | error | eof | leftParen | number | string | define | bool =>
      simp only [step, hkind]
      exact .error rfl rfl

/-- A form whose opening parenthesis was looked at. -/
theorem call_reads (hform : FormReads n inner) {t : Token} (hopen : t.kind = .leftParen)
    (hrest : rest.length < n) (hdepth : depth holes + 1 + maxNesting = count + limit) :
    Simulates (rest.length - 1) (call inner) ⟨some t, rest, count⟩ (halt limit .head holes rest)
      (filled limit holes) := by
  rw [call]
  exact .after (expect_of_slot hopen "call")
    (hform ⟨none, rest, count⟩ limit holes Reader.clean_of_none hrest hdepth)

theorem lambda_reads (hform : FormReads n inner) (line : Nat) (hrounds : rest.length < rounds)
    (hrest : rest.length < n) (hdepth : depth holes + 1 + maxNesting = count + limit) :
    Simulates (rest.length - 1) (lambda inner rounds line) ⟨none, rest, count⟩
      (halt limit (.paramsOpen line) holes rest) (filled limit holes) := by
  rw [lambda, halt_eq_first]
  refine .expect Reader.clean_of_none (fun t rest hkind => ?_) fun t rest' hp hkind => ?_
  · simp only [step, if_neg hkind]
    rfl
  obtain rfl : rest = t :: rest' := hp
  simp only [step, if_pos hkind, List.length_cons] at hrounds hrest ⊢
  refine (parameters_reads line [] (by omega)).bind fun params rest₁ h₁ => ?_
  rw [halt_eq_first]
  refine .peek Reader.clean_of_none fun t rest₂ hp _ => ?_
  obtain rfl : rest₁ = t :: rest₂ := hp
  rw [List.length_cons] at h₁
  by_cases hopen : t.kind = .leftParen
  · simp only [step, operandStep, if_pos hopen]
    refine (call_reads hform hopen (by omega) ?_).bind fun body rest₃ h₃ => ?_
    · simpa [Hole.isLevel] using hdepth
    · cases body with
      | call name args => exact closes "lambda" _ (by omega)
      | list | define | assign | cond | begin | var | number | str | bool | lambda =>
        exact .error rfl rfl
  · simp only [step, operandStep, if_neg hopen]
    exact .error rfl rfl

theorem headStep_of_callee {t : Token} (hkind : t.kind = .call) (hset : t.text ≠ "set")
    (hif : t.text ≠ "if") (hbegin : t.text ≠ "begin") (hlambda : t.text ≠ "lambda") :
    headStep holes t = .shift .operand (.item (.call t.text) [] :: holes) := by
  unfold headStep
  rw [hkind]
  dsimp only
  split
  case h_5 => rfl
  all_goals contradiction

/-- An expression that is a single token, which was looked at. -/
theorem literal_reads {t : Token} {kind : TokenKind} (hkind : t.kind = kind) (context : String) :
    Simulates rest.length (literal kind context) ⟨some t, rest, count⟩
      (proceed limit (fillWith (leaf t) holes) t rest) (filled limit holes) := by
  rw [literal, proceed_fillWith]
  refine .after (expect_of_slot hkind context) ?_
  cases leaf t with
  | ok node => exact .ok rfl (Nat.le_refl _) rfl
  | error e => exact .error rfl rfl

/-- An expression that does not nest too deep. -/
theorem unguarded_reads (hform : FormReads n inner) {r : Reader} (hclean : r.Clean)
    (hlength : r.pending.length < n + 1) (hlimit : depth holes < limit)
    (hdepth : depth holes + 1 + maxNesting = r.depth + limit) :
    Simulates (r.pending.length - 1) (unguarded inner) r (expressionHalt limit holes r.pending)
      (filled limit holes) := by
  rw [unguarded, expressionHalt]
  refine .peek hclean fun t rest hp _ => ?_
  rw [hp, List.length_cons] at hlength
  rw [hp, List.length_cons, Nat.add_sub_cancel, expressionStep, if_neg (Nat.not_le.2 hlimit)]
  cases hkind : t.kind with
  | leftParen =>
    rw [if_pos rfl]
    exact (call_reads hform hkind (by omega) hdepth).mono (Nat.sub_le _ _)
  | number | string | bool | word =>
    rw [if_neg (by decide)]
    exact literal_reads hkind _
  | error | eof | rightParen | call | define =>
    have hleaf : leaf t = .error (.notAnExpression t.describe t.line) := by rw [leaf, hkind]
    rw [if_neg (by decide), hleaf]
    exact .error rfl rfl

theorem expression_of_le {r : Reader} (h : maxNesting ≤ r.depth) :
    expression inner r = (peek >>= fun t => refuse (.tooDeep maxNesting t.line)) r := by
  rw [expression]
  change (if maxNesting ≤ r.depth then _ else _ : Reading Node) r = _
  rw [if_pos h]

theorem expression_of_lt {r r' : Reader} {result : Except Failure Node} (h : r.depth < maxNesting)
    (hinner : unguarded inner r.enter = some (result, r')) :
    expression inner r = some (result, r'.leave) := by
  rw [expression]
  change (if maxNesting ≤ r.depth then _ else _ : Reading Node) r = _
  rw [if_neg (Nat.not_le.2 h)]
  change (unguarded inner r.enter).bind _ = _
  rw [hinner]
  rfl

theorem expression_reads (hform : FormReads n inner) :
    ExpressionReads (n + 1) (expression inner) := by
  intro r limit holes hclean hlength hdepth
  by_cases hdeep : maxNesting ≤ r.depth
  · have hread : Simulates (r.pending.length - 1)
        (peek >>= fun t => refuse (.tooDeep maxNesting t.line)) r
        (expressionHalt limit holes r.pending) (filled limit holes) := by
      refine .peek hclean fun t rest _ _ => ?_
      rw [expressionStep, if_pos (by omega)]
      exact .error rfl rfl
    cases hread with
    | ok h hbound hwhole => exact .ok ((expression_of_le hdeep).trans h) hbound hwhole
    | error h hwhole => exact .error ((expression_of_le hdeep).trans h) hwhole
  · have hlt : r.depth < maxNesting := Nat.lt_of_not_le hdeep
    have hread : Simulates (r.pending.length - 1) (unguarded inner) r.enter
        (expressionHalt limit holes r.pending) (filled limit holes) := by
      refine unguarded_reads (r := r.enter) hform hclean hlength (by omega) ?_
      change depth holes + 1 + maxNesting = r.depth + 1 + limit
      omega
    cases hread with
    | ok h hbound hwhole => exact .ok (expression_of_lt hlt h) hbound hwhole
    | error h hwhole => exact .error (expression_of_lt hlt h) hwhole

/-- One more round is enough for a form that is one token longer. -/
theorem form_succ_reads (hform : FormReads n (form n)) : FormReads (n + 1) (form (n + 1)) := by
  have hexpression := expression_reads hform
  intro r limit holes hclean hlength hdepth
  rw [form, halt_eq_first]
  refine .next hclean fun t rest hp _ => ?_
  rw [hp, List.length_cons] at hlength
  rw [hp, List.length_cons, Nat.add_sub_cancel]
  have hrest : rest.length < n := by omega
  have hrest' : rest.length < n + 1 := by omega
  have hbound : rest.length - 1 ≤ rest.length := Nat.sub_le _ _
  cases hkind : t.kind with
  | define =>
    simp only [step, headStep, hkind]
    exact (binding_reads hexpression .define hrest' hdepth).mono hbound
  | call =>
    dsimp only
    split
    case h_1 htext =>
      simp only [step, headStep, hkind, htext]
      exact (binding_reads hexpression .assign hrest' hdepth).mono hbound
    case h_2 htext =>
      simp only [step, headStep, hkind, htext]
      exact (conditional_reads hexpression hrest' hdepth).mono hbound
    case h_3 htext =>
      simp only [step, headStep, hkind, htext]
      refine (untilClose_reads hexpression (.begin t.line) [] hrest hrest' hdepth).bind ?_
      intro body rest' hrest'
      cases body with
      | nil => exact .error rfl rfl
      | cons node body => exact .ok rfl (by omega) rfl
    case h_4 htext =>
      simp only [step, headStep, hkind, htext]
      exact (lambda_reads hform t.line hrest hrest hdepth).mono hbound
    case h_5 hset hif hbegin hlambda =>
      rw [step, headStep_of_callee hkind hset hif hbegin hlambda]
      refine (untilClose_reads hexpression (.call t.text) [] hrest hrest' hdepth).bind ?_
      exact fun args rest' hrest' => .ok rfl (by omega) rfl
  | error | eof | leftParen | rightParen | number | string | word | bool =>
    simp only [step, headStep, hkind]
    exact .error rfl rfl

/-- More rounds than tokens are enough for every form. -/
theorem form_reads (n : Nat) : FormReads n (form n) := by
  induction n with
  | zero =>
    intro r _ _ _ hlength
    exact absurd hlength (Nat.not_lt_zero _)
  | succ n ih => exact form_succ_reads ih

end Forms

/-! ## Whole trees -/

section Trees

variable {r : Reader} {n : Nat}

/-- A procedure that the machine has nothing to add to. -/
theorem Simulates.eq_outcome {bound : Nat} {x : Reading Node} {whole : Halt Node}
    (h : Simulates bound x r whole fun node rest => ⟨.ok node, none, rest⟩) :
    x r = whole.outcome r.depth := by
  cases h with
  | ok h _ hwhole => rw [h, hwhole]; rfl
  | error h hwhole => rw [h, hwhole]; rfl

theorem expression_eq (hclean : r.Clean) (hdepth : r.depth = 0) (hrounds : r.pending.length < n) :
    expression (form n) r = (halt maxNesting .operand [] r.pending).outcome 0 := by
  have hread := expression_reads (form_reads n) r maxNesting [] hclean (Nat.lt_succ_of_lt hrounds)
    (by rw [hdepth]; rfl)
  rw [halt_operand fun _ => rfl, ← hdepth]
  exact hread.eq_outcome

/-- Where a form by itself halts.  It is inside no expression, so one more may be open in it. -/
def callHalt : List Token → Halt Node :=
  first fun t rest =>
    if t.kind = .leftParen then halt (maxNesting + 1) .head [] rest
    else ⟨.error (.parse (unexpected .leftParen "call" t)), none, rest⟩

theorem call_eq (hclean : r.Clean) (hdepth : r.depth = 0) (hrounds : r.pending.length < n) :
    call (form n) r = (callHalt r.pending).outcome 0 := by
  have hread : Simulates r.pending.length (call (form n)) r (callHalt r.pending) fun node rest =>
      ⟨.ok node, none, rest⟩ := by
    refine .expect hclean (fun t rest hkind => if_neg hkind) fun t rest hp hkind => ?_
    rw [hp, List.length_cons] at hrounds ⊢
    have hform := form_reads n ⟨none, rest, r.depth⟩ (maxNesting + 1) [] Reader.clean_of_none
      (Nat.lt_of_succ_lt hrounds) (by rw [hdepth]; simp [depth, Nat.add_comm])
    have hbound : rest.length - 1 ≤ rest.length + 1 := by omega
    rw [if_pos hkind]
    exact hform.mono hbound
  rw [← hdepth]
  exact hread.eq_outcome

/-- A program is read an expression at a time. -/
theorem program_eq (hclean : r.Clean) (hdepth : r.depth = 0) (hrounds : r.pending.length < n)
    (done : List Node) :
    program n done r = (halt maxNesting .operand [.program done] r.pending).outcome 0 := by
  induction n generalizing r done with
  | zero => exact absurd hrounds (Nat.not_lt_zero _)
  | succ n ih =>
    rw [program, halt_eq_first, ← hdepth]
    refine outcome_of_first (peek_eq hclean) fun t rest hp hkind => ?_
    rw [hp, List.length_cons] at hrounds
    by_cases heof : t.kind = .eof
    · simp only [step, operandStep, if_pos heof]
      rfl
    · have hread := expression_reads (form_reads n) ⟨some t, rest, r.depth⟩ maxNesting
        [.program done] (Reader.clean_of_some hkind) hrounds (by rw [hdepth]; rfl)
      rw [Reader.pending_some, expressionHalt, first, if_neg hkind, List.length_cons] at hread
      simp only [step, operandStep, if_neg heof]
      cases hread with
      | error h hwhole =>
        rw [hwhole]
        exact bind_of_error h _
      | @ok node rest' h hbound hwhole =>
        have hrounds' : rest'.length < n := by omega
        rw [hwhole, bind_of_ok h, hdepth]
        exact ih Reader.clean_of_none rfl hrounds' (node :: done)

end Trees

end HostLisp.Descent
