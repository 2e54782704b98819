import HostLisp.Proofs.HostCall
import HostLisp.Run

/-!
# What every evaluation keeps

Statements about all evaluations have one shape: something holds of the machine before, and of the
machine after whether the evaluation succeeds or fails; something holds of every value that is
computed, and of every error.  This file proves the induction behind such statements once.

`Eval.Ends` says how a computation ends from a given machine; it is the weakest precondition of the
computation, and `ends_bind` is what makes it usable.  A `Discipline` collects what is to hold of
machines, nodes, values, errors, host functions and scopes.  It is `Kept` if the single steps of
evaluation keep it, and then all of evaluation inside one body does (`Discipline.Kept.evalNode`),
provided entering a closure does.  What entering a closure does is left open there, because that is
the other recursion of the evaluator; a discipline that does not look at the count of open calls
goes through it in one way (`Discipline.Kept.eval`).  Such a discipline is then kept by whole runs
(`Discipline.Kept.nodes`), which add nothing but the printing of results.
-/

namespace HostLisp

/-- The machine after one more call was dispatched. -/
def Machine.counted {ω : Type} (m : Machine ω) : Machine ω := { m with calls := m.calls + 1 }

/-- The machine that the body of a closure starts in. -/
def Machine.entered {ω : Type} (m : Machine ω) (c : Closure) (bindings : Bindings) : Machine ω :=
  { (m.openChild c.captured bindings).2 with depth := m.depth + 1 }

/-- The machine after the body of a closure is done with. -/
def Machine.exited {ω : Type} (m : Machine ω) : Machine ω := { m with depth := m.depth - 1 }

/-- One expression of a run: it is evaluated, and its result is printed. -/
theorem Exec.nodes_cons {ω : Type} (node : Node) (rest : List Node) (c : Console ω) :
    Exec.nodes (node :: rest) c =
      match eval node c.machine.globals c.machine with
      | .ok v m =>
        match c.sink.write v.printed with
        | (true, sink) => Exec.nodes rest ⟨m, sink⟩
        | (false, sink) => .error .sinkFull ⟨m, sink⟩
      | .error e m => .error e ⟨m, c.sink⟩ := by
  have hlift : (Exec.liftEval (do eval node (← get).globals) : Exec ω Value) c
      = Exec.liftEval (eval node c.machine.globals) c := rfl
  rw [Exec.nodes]
  change EStateM.bind _ _ c = _
  rw [EStateM.bind, hlift, Exec.liftEval]
  cases eval node c.machine.globals c.machine with
  | error e m => rfl
  | ok v m =>
    change EStateM.bind (Exec.print v.printed) _ _ = _
    rw [EStateM.bind, Exec.print]
    dsimp only
    obtain ⟨fits, sink⟩ := c.sink.write v.printed
    cases fits <;> rfl

section Nodes

variable {ω : Type} {node : Node} {c : Console ω} {m : Machine ω} {v : Value} {sink : Sink}

theorem Exec.nodes_cons_of_taken (heval : eval node c.machine.globals c.machine = .ok v m)
    (hwrite : c.sink.write v.printed = (true, sink)) (rest : List Node) :
    Exec.nodes (node :: rest) c = Exec.nodes rest ⟨m, sink⟩ := by
  rw [Exec.nodes_cons, heval]
  simp only [hwrite]

theorem Exec.nodes_cons_of_full (heval : eval node c.machine.globals c.machine = .ok v m)
    (hwrite : c.sink.write v.printed = (false, sink)) (rest : List Node) :
    Exec.nodes (node :: rest) c = .error .sinkFull ⟨m, sink⟩ := by
  rw [Exec.nodes_cons, heval]
  simp only [hwrite]

theorem Exec.nodes_cons_of_error {e : Error}
    (heval : eval node c.machine.globals c.machine = .error e m) (rest : List Node) :
    Exec.nodes (node :: rest) c = .error e ⟨m, c.sink⟩ := by
  rw [Exec.nodes_cons, heval]

end Nodes

namespace Eval

variable {ω : Type} {α β : Type}

/-! ## How a computation ends -/

/-- From `m` the computation ends in a value and a machine with `Q`, or in an error and a machine
with `E`. -/
def Ends (x : Eval ω α) (m : Machine ω) (Q : α → Machine ω → Prop)
    (E : Error → Machine ω → Prop) : Prop :=
  match x m with
  | .ok a m' => Q a m'
  | .error e m' => E e m'

/-- The machine that a computation leaves behind, whether it succeeds or fails. -/
def after (x : Eval ω α) (m : Machine ω) : Machine ω :=
  match x m with
  | .ok _ m' | .error _ m' => m'

section Ends

variable {m : Machine ω} {Q : α → Machine ω → Prop} {E : Error → Machine ω → Prop}

theorem ends_bind (x : Eval ω β) (k : β → Eval ω α) :
    Ends (x >>= k) m Q E ↔ Ends x m (fun b m' => Ends (k b) m' Q E) E := by
  simp only [Ends, bind, EStateM.bind]
  cases x m <;> rfl

/-- Looking at the machine changes nothing. -/
theorem ends_get_bind (k : Machine ω → Eval ω α) : Ends (get >>= k) m Q E ↔ Ends (k m) m Q E :=
  Iff.rfl

theorem ends_check {x : Except BindError α} (hok : ∀ a, x = .ok a → Q a m)
    (herror : ∀ e, E (.bind e) m) : Ends (check x) m Q E := by
  cases x with
  | ok a => exact hok a rfl
  | error e => exact herror e

/-- Entering a closure is evaluating its body in a scope of its own, with one more call in
progress. -/
theorem enter_succ (left : Nat) (name : String) (c : Closure) (bindings : Bindings) :
    enter (left + 1) name c bindings m =
      match evalNode (enter left) c.body.node m.scopes.size (m.entered c bindings) with
      | .ok v m' => .ok v m'.exited
      | .error e m' => .error e m'.exited := rfl

theorem ends_enter {Q : Value → Machine ω → Prop} (left : Nat) (name : String) (c : Closure)
    (bindings : Bindings) :
    Ends (enter (left + 1) name c bindings) m Q E ↔
      Ends (evalNode (enter left) c.body.node m.scopes.size) (m.entered c bindings)
        (fun v m' => Q v m'.exited) (fun e m' => E e m'.exited) := by
  unfold Ends
  rw [enter_succ]
  cases evalNode (enter left) c.body.node m.scopes.size (m.entered c bindings) <;> rfl

theorem Ends.imp {x : Eval ω α} {Q' : α → Machine ω → Prop} {E' : Error → Machine ω → Prop}
    (h : Ends x m Q E) (hQ : ∀ a m', Q a m' → Q' a m') (hE : ∀ e m', E e m' → E' e m') :
    Ends x m Q' E' := by
  unfold Ends at h ⊢
  split at h
  case h_1 a m' hx => exact hQ a m' h
  case h_2 e m' hx => exact hE e m' h

/-- A computation that ends well can be gone on from, and may take its own result into account. -/
theorem Ends.bind {x : Eval ω β} {k : β → Eval ω α} {Q₀ : β → Machine ω → Prop}
    (h : Ends x m Q₀ E) (hk : ∀ b m', x m = .ok b m' → Q₀ b m' → Ends (k b) m' Q E) :
    Ends (x >>= k) m Q E := by
  rw [ends_bind]
  unfold Ends at h ⊢
  split
  case h_1 b m' hx => rw [hx] at h; exact hk b m' hx h
  case h_2 e m' hx => rw [hx] at h; exact h

theorem Ends.of_ok {x : Eval ω α} {a : α} {m' : Machine ω} (h : Ends x m Q E)
    (hx : x m = .ok a m') : Q a m' := by
  unfold Ends at h
  rwa [hx] at h

theorem Ends.and {x : Eval ω α} {Q' : α → Machine ω → Prop} {E' : Error → Machine ω → Prop}
    (h : Ends x m Q E) (h' : Ends x m Q' E') :
    Ends x m (fun a m' => Q a m' ∧ Q' a m') (fun e m' => E e m' ∧ E' e m') := by
  unfold Ends at h h' ⊢
  cases hx : x m with rw [hx] at h h'
  | ok a m' => exact ⟨h, h'⟩
  | error e m' => exact ⟨h, h'⟩

/-- What holds of the machine either way holds of the machine that is left behind. -/
theorem Ends.after {x : Eval ω α} {P : Machine ω → Prop}
    (h : Ends x m (fun _ m' => P m') fun _ m' => P m') : P (x.after m) := by
  unfold Ends at h
  unfold Eval.after
  cases hx : x m with rw [hx] at h
  | ok a m' => exact h
  | error e m' => exact h

/-- The host's turn changes nothing but the host's own state. -/
theorem ends_callHost (f : HostFunction ω) (shape : ReturnShape) (values : List Value)
    (m : Machine ω) :
    Ends (callHost f shape values) m
      (fun _ m' => m' = { m with world := (f.call values m.world).2 })
      fun _ m' => m' = { m with world := (f.call values m.world).2 } := by
  unfold Ends
  rw [callHost_eq]
  cases hostResult f.name shape (f.call values m.world).1 with
  | ok v => rfl
  | error e => rfl

end Ends

/-! ## Calls

A call first counts itself and then goes one of three ways.  Nothing below looks at the text of
`evalNode` for calls; these equations are all that is needed of it. -/

section Calls

variable {enter : Enter ω} {name : String} {args : List Node} {env : ScopeId} {m : Machine ω}

theorem countCall_bind (k : Unit → Eval ω α) : (countCall >>= k) m = k () m.counted := rfl

theorem get_bind (k : Machine ω → Eval ω α) : (get >>= k) m = k m m := rfl

theorem evalNode_call_host {f : HostFunction ω} (hf : m.hostFunction? env name = some f) :
    evalNode enter (.call name args) env m =
      (prepareHost enter f args env >>= fun p => callHost f p.1 p.2) m.counted := by
  have hf' : m.counted.hostFunction? env name = some f := hf
  rw [evalNode, countCall_bind, get_bind, hf']
  simp only [prepareHost, bind_assoc, pure_bind]

/-- Without a host function of the name, the call is of what the name is bound to. -/
theorem evalNode_call_bound (hf : m.hostFunction? env name = none) :
    evalNode enter (.call name args) env m =
      (match m.lookup env name with
        | some (.closure closure) =>
          if args.length = closure.arity then do
            let bindings ← evalParams enter [] closure.params args env
            enter name closure bindings
          else refuse (.argumentCount name (.exactly closure.arity) args.length)
        | some other => refuse (.notCallable name other.kind)
        | none => refuse (.undefinedFunction name) : Eval ω Value) m.counted := by
  have hf' : m.counted.hostFunction? env name = none := hf
  rw [evalNode, countCall_bind, get_bind, hf']
  rfl

theorem evalNode_call_closure {c : Closure} (hf : m.hostFunction? env name = none)
    (hc : m.lookup env name = some (.closure c)) (hargs : args.length = c.arity) :
    evalNode enter (.call name args) env m =
      (evalParams enter [] c.params args env >>= fun bindings => enter name c bindings)
        m.counted := by
  rw [evalNode_call_bound hf, hc]
  simp only [hargs, if_true]

/-- Where a call goes.  A refused call fails with a binding error that has nothing to do with how
closures are entered. -/
inductive Dispatch (m : Machine ω) (env : ScopeId) (name : String) (args : List Node) : Prop where
  | host (f : HostFunction ω) : m.hostFunction? env name = some f → Dispatch m env name args
  | closure (c : Closure) : m.hostFunction? env name = none →
      m.lookup env name = some (.closure c) → args.length = c.arity → Dispatch m env name args
  | refused (e : BindError) :
      (∀ enter, evalNode enter (.call name args) env m = .error (.bind e) m.counted) →
      Dispatch m env name args

theorem dispatch (m : Machine ω) (env : ScopeId) (name : String) (args : List Node) :
    Dispatch m env name args := by
  cases hf : m.hostFunction? env name with
  | some f => exact .host f hf
  | none =>
    cases hv : m.lookup env name with
    | none =>
      exact .refused (.undefinedFunction name) fun enter => by rw [evalNode_call_bound hf, hv]; rfl
    | some v =>
      cases v with
      | closure c =>
        by_cases hargs : args.length = c.arity
        · exact .closure c hf hv hargs
        · refine .refused (.argumentCount name (.exactly c.arity) args.length) fun enter => ?_
          rw [evalNode_call_bound hf, hv]
          simp only [if_neg hargs]
          rfl
      | _ =>
        exact .refused (.notCallable name _) fun enter => by rw [evalNode_call_bound hf, hv]; rfl

end Calls

end Eval

/-! ## Disciplines -/

/-- The expressions of a form that are evaluated in the scope of the form.  The body of a `lambda`
is none of them: it is evaluated when the closure is called, in another scope. -/
def Node.operands : Node → List Node
  | .define _ value | .assign _ value => [value]
  | .cond test conseq alt => [test, conseq, alt]
  | .begin body => body
  | .call _ args => args
  | _ => []

/-- The operands of forms, place by place. -/
inductive Node.IsOperand (part : Node) : Node → Prop where
  | define {name : String} : IsOperand part (.define name part)
  | assign {name : String} : IsOperand part (.assign name part)
  | test {conseq alt : Node} : IsOperand part (.cond part conseq alt)
  | conseq {test alt : Node} : IsOperand part (.cond test part alt)
  | alt {test conseq : Node} : IsOperand part (.cond test conseq part)
  | item {body : List Node} : part ∈ body → IsOperand part (.begin body)
  | argument {name : String} {args : List Node} : part ∈ args → IsOperand part (.call name args)

theorem Node.isOperand_of_mem {node part : Node} (h : part ∈ node.operands) :
    part.IsOperand node := by
  cases node with
  | define name value | assign name value =>
    obtain rfl : part = value := List.mem_singleton.1 h
    constructor
  | cond test conseq alt =>
    simp only [Node.operands, List.mem_cons, List.not_mem_nil, or_false] at h
    rcases h with rfl | rfl | rfl
    · exact .test
    · exact .conseq
    · exact .alt
  | begin body => exact .item h
  | call name args => exact .argument h
  | list | var | number | str | bool | lambda => cases h

/-- What is to hold of everything that evaluation deals with. -/
structure Discipline (ω : Type) where
  machine : Machine ω → Prop
  /-- The scopes that nodes are evaluated in. -/
  scope : ScopeId → Prop
  node : Node → Prop
  value : Value → Prop
  host : HostFunction ω → Prop
  error : Error → Prop

namespace Discipline

variable {ω : Type} {α β : Type} {D : Discipline ω}

/-- A computation that keeps to the discipline, with `Q` of its result. -/
def Upholds (D : Discipline ω) (x : Eval ω α) (Q : α → Prop) : Prop :=
  ∀ m, D.machine m →
    Eval.Ends x m (fun a m' => Q a ∧ D.machine m') (fun e m' => D.error e ∧ D.machine m')

/-- An argument of a host function: a value of the program, or an unsigned integer read off a
literal, which the program itself never sees. -/
def Argument (D : Discipline ω) (v : Value) : Prop := D.value v ∨ ∃ u, v = .uint u

/-- A value that a slot was given for an argument.  An unsigned integer is read off a literal only
if the slot is for one. -/
def Supplied (D : Discipline ω) (slot : Kind) (arg : Node) (v : Value) : Prop :=
  D.value v ∨ slot = .uint ∧ ∃ literal, arg = .number literal ∧
    ∃ u, v = .uint u ∧ (u.toNat : Int) = literal.value.toInt

theorem Supplied.argument {slot : Kind} {arg : Node} {v : Value} (h : D.Supplied slot arg v) :
    D.Argument v := by
  rcases h with hv | ⟨-, literal, -, u, hu, -⟩
  · exact .inl hv
  · exact .inr ⟨u, hu⟩

/-- The bindings that a closure may be entered with. -/
def Bound (D : Discipline ω) (bindings : Bindings) : Prop := ∀ b ∈ bindings, D.value b.2

/-- Entering closures keeps to the discipline. -/
def Enters (D : Discipline ω) (enter : Enter ω) : Prop :=
  ∀ name c bindings, D.value (.closure c) → D.Bound bindings →
    D.Upholds (enter name c bindings) D.value

/-- The single steps of evaluation keep to the discipline. -/
structure Kept (D : Discipline ω) : Prop where
  operand : ∀ {node}, D.node node → ∀ part ∈ node.operands, D.node part
  bindError : ∀ e, D.error (.bind e)
  nestedList : ∀ {children}, D.node (.list children) → D.error (.fatal .nestedList)
  constant : ∀ {v : Value}, v.kind ∈ [Kind.unit, .bool, .int, .str] → D.value v
  lookup : ∀ {m env name v}, D.machine m → D.scope env → m.lookup env name = some v → D.value v
  define : ∀ {m m' env name n v}, D.node (.define name n) → D.machine m → D.scope env → D.value v →
    m.define env name v = .ok m' → D.machine m'
  assign : ∀ {m m' env name n v}, D.node (.assign name n) → D.machine m → D.scope env → D.value v →
    m.assign env name v = .ok m' → D.machine m'
  lambda : ∀ {m env params name args}, D.node (.lambda params name args) → D.machine m →
    D.scope env → D.value (.closure (m.makeClosure params ⟨name, args⟩ env).1) ∧
      D.machine (m.makeClosure params ⟨name, args⟩ env).2
  count : ∀ {m}, D.machine m → D.machine m.counted
  hostFunction : ∀ {m env name f}, D.machine m → D.scope env → m.hostFunction? env name = some f →
    D.host f
  callHost : ∀ {f args shape values}, D.host f → Eval.Prepared f args shape values →
    (∀ v ∈ values, D.Argument v) → D.Upholds (Eval.callHost f shape values) D.value

/-! ### Sequences -/

theorem upholds_pure {Q : α → Prop} {a : α} (ha : Q a) : D.Upholds (pure a) Q :=
  fun _ hm => ⟨ha, hm⟩

theorem Kept.refuse (h : D.Kept) {Q : α → Prop} (e : BindError) :
    D.Upholds (Eval.refuse e : Eval ω α) Q :=
  fun _ hm => ⟨h.bindError e, hm⟩

theorem Kept.check (h : D.Kept) {Q : α → Prop} {x : Except BindError α}
    (hx : ∀ a, x = .ok a → Q a) : D.Upholds (Eval.check x) Q :=
  fun _ hm => Eval.ends_check (fun a ha => ⟨hx a ha, hm⟩) (fun e => ⟨h.bindError e, hm⟩)

theorem Upholds.bind {x : Eval ω β} {k : β → Eval ω α} {P : β → Prop} {Q : α → Prop}
    (hx : D.Upholds x P) (hk : ∀ b, P b → D.Upholds (k b) Q) : D.Upholds (x >>= k) Q :=
  fun m hm => (hx m hm).bind fun b m' _ hb => hk b hb.1 m' hb.2

/-- Whatever a computation comes to, the machine it leaves behind is as it should be. -/
theorem Upholds.after {x : Eval ω α} {Q : α → Prop} {m : Machine ω} (h : D.Upholds x Q)
    (hm : D.machine m) : D.machine (x.after m) :=
  ((h m hm).imp (fun _ _ ha => ha.2) fun _ _ he => he.2).after

/-! ### Single steps -/

section Steps

variable {env : ScopeId} {name : String}

theorem Kept.readVar (h : D.Kept) (hs : D.scope env) :
    D.Upholds (Eval.readVar env name) D.value := by
  intro m hm
  rw [Eval.readVar, Eval.ends_get_bind]
  cases hv : m.lookup env name with
  | some v => exact ⟨h.lookup hm hs hv, hm⟩
  | none => exact h.refuse _ m hm

theorem Kept.defineStep (h : D.Kept) {n : Node} (hn : D.node (.define name n)) (hs : D.scope env)
    {v : Value} (hv : D.value v) : D.Upholds (Eval.define env name v) D.value := by
  intro m hm
  unfold Eval.Ends Eval.define
  cases hd : m.define env name v with
  | ok m' => exact ⟨h.constant (by decide), h.define hn hm hs hv hd⟩
  | error e => exact ⟨h.bindError e, hm⟩

theorem Kept.assignStep (h : D.Kept) {n : Node} (hn : D.node (.assign name n)) (hs : D.scope env)
    {v : Value} (hv : D.value v) : D.Upholds (Eval.assign env name v) D.value := by
  intro m hm
  unfold Eval.Ends Eval.assign
  cases hd : m.assign env name v with
  | ok m' => exact ⟨h.constant (by decide), h.assign hn hm hs hv hd⟩
  | error e => exact ⟨h.bindError e, hm⟩

theorem Kept.hostArg (h : D.Kept) {function : String} {slot : Kind} {arg : Node}
    {x : Eval ω Value} (hx : D.Upholds x D.value) :
    D.Upholds (Eval.hostArg function slot arg x) (D.Supplied slot arg) := by
  unfold Eval.hostArg
  split
  case h_1 literal =>
    refine h.check fun v hv => .inr ⟨rfl, literal, rfl, ?_⟩
    exact (bindUnsigned_takes hv).literal literal rfl rfl
  case h_2 =>
    refine hx.bind fun v hv => h.check fun v' hv' => .inl ?_
    exact (bindArgument_eq_ok hv').1 ▸ hv

theorem Kept.prepareHost (h : D.Kept) {enter : Enter ω} {f : HostFunction ω} {args : List Node}
    (hargs : D.Upholds (Eval.evalHostArgs enter f 0 args env) fun vs => ∀ v ∈ vs, D.Argument v) :
    D.Upholds (Eval.prepareHost enter f args env) fun p => ∀ v ∈ p.2, D.Argument v := by
  unfold Eval.prepareHost
  refine (h.check fun _ _ => trivial).bind fun _ _ => ?_
  refine (h.check fun _ _ => trivial).bind fun shape _ => ?_
  exact hargs.bind fun vs hvs => upholds_pure hvs

end Steps

/-! ### Inside one body -/

mutual

/-- Evaluation keeps to a discipline that its steps keep and that entering closures keeps. -/
theorem Kept.evalNode (h : D.Kept) {enter : Enter ω} (he : D.Enters enter) :
    ∀ (node : Node) (env : ScopeId), D.node node → D.scope env →
      D.Upholds (Eval.evalNode enter node env) D.value
  | .list children, env, hn, hs => by
    rw [Eval.evalNode]
    exact fun m hm => ⟨h.nestedList hn, hm⟩
  | .number literal, env, hn, hs => by
    rw [Eval.evalNode]
    exact upholds_pure (h.constant (by simp [Value.kind]))
  | .str text, env, hn, hs => by
    rw [Eval.evalNode]
    exact upholds_pure (h.constant (by simp [Value.kind]))
  | .bool value, env, hn, hs => by
    rw [Eval.evalNode]
    exact upholds_pure (h.constant (by simp [Value.kind]))
  | .var name, env, hn, hs => by
    rw [Eval.evalNode]
    exact h.readVar hs
  | .define name value, env, hn, hs => by
    have hvalue := h.evalNode he value env (h.operand hn value (by simp [Node.operands])) hs
    intro m hm
    rw [Eval.evalNode, Eval.ends_get_bind]
    split
    · exact h.refuse _ m hm
    · exact hvalue.bind (fun v hv => h.defineStep hn hs hv) m hm
  | .assign name value, env, hn, hs => by
    have hvalue := h.evalNode he value env (h.operand hn value (by simp [Node.operands])) hs
    intro m hm
    rw [Eval.evalNode, Eval.ends_get_bind]
    split
    · exact h.refuse _ m hm
    · exact hvalue.bind (fun v hv => h.assignStep hn hs hv) m hm
  | .cond test conseq alt, env, hn, hs => by
    have htest := h.evalNode he test env (h.operand hn test (by simp [Node.operands])) hs
    have hconseq := h.evalNode he conseq env (h.operand hn conseq (by simp [Node.operands])) hs
    have halt := h.evalNode he alt env (h.operand hn alt (by simp [Node.operands])) hs
    rw [Eval.evalNode]
    refine htest.bind fun v _ => ?_
    split
    · exact hconseq
    · exact halt
    · exact h.refuse _
  | .begin body, env, hn, hs => by
    rw [Eval.evalNode]
    exact h.evalBody he body env .unit (h.constant (by decide)) (h.operand hn) hs
  | .lambda params name args, env, hn, hs => by
    rw [Eval.evalNode]
    exact fun m hm => h.lambda hn hm hs
  | .call name args, env, hn, hs => by
    intro m hm
    have hm' := h.count hm
    cases Eval.dispatch m env name args with
    | host f hf =>
      unfold Eval.Ends
      rw [Eval.evalNode_call_host hf]
      have hargs := h.evalHostArgs he args f 0 env (h.operand hn) hs
      refine (h.prepareHost hargs _ hm').bind fun p m' hp hpost => ?_
      exact h.callHost (h.hostFunction hm hs hf) (Eval.prepareHost_prepared hp) hpost.1 m' hpost.2
    | closure c hf hc hlen =>
      unfold Eval.Ends
      rw [Eval.evalNode_call_closure hf hc hlen]
      have hparams := h.evalParams he args c.params env [] (by simp [Bound]) (h.operand hn) hs
      exact hparams.bind (fun bindings hb => he name c bindings (h.lookup hm hs hc) hb) _ hm'
    | refused e heq =>
      unfold Eval.Ends
      rw [heq enter]
      exact ⟨h.bindError e, hm'⟩

theorem Kept.evalBody (h : D.Kept) {enter : Enter ω} (he : D.Enters enter) :
    ∀ (nodes : List Node) (env : ScopeId) (last : Value), D.value last →
      (∀ n ∈ nodes, D.node n) → D.scope env → D.Upholds (Eval.evalBody enter last nodes env) D.value
  | [], env, last, hlast, hn, hs => by
    rw [Eval.evalBody]
    exact upholds_pure hlast
  | node :: rest, env, last, hlast, hn, hs => by
    have hnode := h.evalNode he node env (hn node (by simp)) hs
    rw [Eval.evalBody]
    exact hnode.bind fun v hv =>
      h.evalBody he rest env v hv (fun n hr => hn n (by simp [hr])) hs

theorem Kept.evalHostArgs (h : D.Kept) {enter : Enter ω} (he : D.Enters enter) :
    ∀ (args : List Node) (f : HostFunction ω) (index : Nat) (env : ScopeId),
      (∀ n ∈ args, D.node n) → D.scope env →
      D.Upholds (Eval.evalHostArgs enter f index args env) (fun vs => ∀ v ∈ vs, D.Argument v)
  | [], f, index, env, hn, hs => by
    rw [Eval.evalHostArgs]
    exact upholds_pure (by simp)
  | arg :: rest, f, index, env, hn, hs => by
    have harg := h.evalNode he arg env (hn arg (by simp)) hs
    have hrest := h.evalHostArgs he rest f (index + 1) env (fun n hr => hn n (by simp [hr])) hs
    rw [Eval.evalHostArgs]
    refine (h.hostArg harg).bind fun v hv => hrest.bind fun vs hvs => upholds_pure ?_
    exact List.forall_mem_cons.2 ⟨hv.argument, hvs⟩

theorem Kept.evalParams (h : D.Kept) {enter : Enter ω} (he : D.Enters enter) :
    ∀ (args : List Node) (params : List String) (env : ScopeId) (bound : Bindings),
      D.Bound bound → (∀ n ∈ args, D.node n) → D.scope env →
      D.Upholds (Eval.evalParams enter bound params args env) D.Bound
  | [], params, env, bound, hb, hn, hs => by
    rw [Eval.evalParams]
    · exact upholds_pure hb
    · simp
  | arg :: rest, [], env, bound, hb, hn, hs => by
    rw [Eval.evalParams]
    · exact upholds_pure hb
    · simp
  | arg :: rest, param :: params, env, bound, hb, hn, hs => by
    have harg := h.evalNode he arg env (hn arg (by simp)) hs
    rw [Eval.evalParams]
    refine harg.bind fun v hv => ?_
    split
    · exact h.refuse _
    · refine h.evalParams he rest params env _ ?_ (fun n hr => hn n (by simp [hr])) hs
      intro b hmem
      rcases List.mem_cons.1 hmem with rfl | hmem
      · exact hv
      · exact hb b hmem

end

/-! ### From body to body

A discipline that does not look at the count of open calls, and allows bodies to be evaluated in the
scopes that are opened for them, is kept by all of evaluation. -/

/-- Opening the scope of a closure call keeps to the discipline, and so does its body. -/
structure Opens (D : Discipline ω) : Prop where
  depth : ∀ {m} d, D.machine m → D.machine { m with depth := d }
  openChild : ∀ {m c bindings}, D.value (.closure c) → D.Bound bindings → D.machine m →
    D.machine (m.openChild c.captured bindings).2 ∧ D.scope (m.openChild c.captured bindings).1
  body : ∀ {c : Closure}, D.value (.closure c) → D.node c.body.node

theorem Kept.enter (h : D.Kept) (ho : D.Opens) (left : Nat) : D.Enters (Eval.enter left) := by
  induction left with
  | zero => exact fun name c bindings _ _ => h.refuse _
  | succ left ih =>
    intro name c bindings hc hb m hm
    obtain ⟨hmachine, hscope⟩ := ho.openChild hc hb hm
    rw [Eval.ends_enter]
    have hbody :=
      h.evalNode ih c.body.node _ (ho.body hc) hscope _ (ho.depth (m.depth + 1) hmachine)
    exact hbody.imp (fun v m' hv => ⟨hv.1, ho.depth _ hv.2⟩) fun e m' he => ⟨he.1, ho.depth _ he.2⟩

theorem Kept.eval (h : D.Kept) (ho : D.Opens) {node : Node} {env : ScopeId} (hn : D.node node)
    (hs : D.scope env) : D.Upholds (eval node env) D.value :=
  fun m hm => h.evalNode (h.enter ho (maxCallDepth - m.depth)) node env hn hs m hm

/-! ### From expression to expression -/

/-- A run that keeps to the discipline, however it ends. -/
def Governs (D : Discipline ω) (x : Exec ω α) : Prop :=
  ∀ c, D.machine c.machine →
    match x c with
    | .ok _ c' => D.machine c'.machine
    | .error e c' => D.error e ∧ D.machine c'.machine

/-- The induction is on the expressions: what one of them leaves is where the next one starts. -/
theorem Kept.nodes (h : D.Kept) (ho : D.Opens) (hglobals : ∀ m, D.machine m → D.scope m.globals)
    (hfull : D.error .sinkFull) {nodes : List Node} (hn : ∀ n ∈ nodes, D.node n) :
    D.Governs (Exec.nodes nodes) := by
  induction nodes with
  | nil => exact fun c hm => hm
  | cons node rest ih =>
    intro c hm
    have hends := h.eval ho (hn node (by simp)) (hglobals _ hm) c.machine hm
    have hrest := ih fun n hr => hn n (by simp [hr])
    unfold Eval.Ends at hends
    cases heval : HostLisp.eval node c.machine.globals c.machine with rw [heval] at hends
    | ok v m' =>
      cases hwrite : c.sink.write v.printed with
      | mk fits sink =>
        cases fits with
        | true =>
          rw [Exec.nodes_cons_of_taken heval hwrite]
          exact hrest ⟨m', sink⟩ hends.2
        | false =>
          rw [Exec.nodes_cons_of_full heval hwrite]
          exact ⟨hfull, hends.2⟩
    | error e m' =>
      rw [Exec.nodes_cons_of_error heval]
      exact hends

end Discipline

end HostLisp
