import HostLisp.Proofs.CallDepth
import Mathlib.Logic.Relation

/-!
# Evaluation terminates

A `Task` is an evaluation that is about to start: a node, a scope and the machine as it stands.
Carrying it out starts further tasks.  Most are for an operand of the node, in the same scope and
with the same count of calls in progress; a call of a closure also starts one for the body of the
closure, which is not part of the node, but there the count is one higher.  `Task.Operand` and
`Task.Body` are these two ways, each under the conditions that the evaluator itself tests: an
operand is only reached if everything before it succeeded, and a body only if the limit allows.

So every task that is started is smaller, first by the calls that may still be opened and then by
the size of its node (`Task.Starts.descends`), and the count stays within the limit in all of them.
-/

namespace HostLisp

variable {ω : Type}

/-- How closures are entered from a machine: as many more calls may be opened as the limit allows
beyond those in progress. -/
def Machine.entry (m : Machine ω) : Enter ω := Eval.enter (maxCallDepth - m.depth)

/-- An evaluation that is about to start. -/
structure Task (ω : Type) where
  node : Node
  env : ScopeId
  machine : Machine ω

namespace Task

/-- What the task comes to. -/
def result (t : Task ω) : EStateM.Result Error (Machine ω) Value := eval t.node t.env t.machine

/-- The machine after the task, whatever it comes to. -/
def final (t : Task ω) : Machine ω := (eval t.node t.env).after t.machine

/-! ## Tasks that a task starts -/

/-- The second task is for an operand of the first, reached with all operands before it done. -/
inductive Operand : Task ω → Task ω → Prop where
  | define {name value env} {m : Machine ω} :
      m.isLocal env name = false →
      Operand ⟨.define name value, env, m⟩ ⟨value, env, m⟩
  | assign {name value env} {m : Machine ω} :
      (m.lookup env name).isSome = true →
      Operand ⟨.assign name value, env, m⟩ ⟨value, env, m⟩
  | test {test conseq alt env} {m : Machine ω} :
      Operand ⟨.cond test conseq alt, env, m⟩ ⟨test, env, m⟩
  | conseq {test conseq alt env} {m m' : Machine ω} :
      eval test env m = .ok (.bool true) m' →
      Operand ⟨.cond test conseq alt, env, m⟩ ⟨conseq, env, m'⟩
  | alt {test conseq alt env} {m m' : Machine ω} :
      eval test env m = .ok (.bool false) m' →
      Operand ⟨.cond test conseq alt, env, m⟩ ⟨alt, env, m'⟩
  | item {done node rest env last} {m m' : Machine ω} :
      Eval.evalBody m.entry .unit done env m = .ok last m' →
      Operand ⟨.begin (done ++ node :: rest), env, m⟩ ⟨node, env, m'⟩
  | hostArgument {name done arg rest env f shape values} {m m' : Machine ω} :
      m.hostFunction? env name = some f →
      f.signature.checkArity f.name (done ++ arg :: rest).length = .ok () →
      f.signature.returnShape f.name = .ok shape →
      Eval.evalHostArgs m.entry f 0 done env m.counted = .ok values m' →
      (∀ literal, arg = .number literal → f.signature.param? done.length ≠ some .uint) →
      Operand ⟨.call name (done ++ arg :: rest), env, m⟩ ⟨arg, env, m'⟩
  | argument {name done arg rest env c bindings} {m m' : Machine ω} :
      m.hostFunction? env name = none →
      m.lookup env name = some (.closure c) →
      (done ++ arg :: rest).length = c.arity →
      Eval.evalParams m.entry [] (c.params.take done.length) done env m.counted =
        .ok bindings m' →
      Operand ⟨.call name (done ++ arg :: rest), env, m⟩ ⟨arg, env, m'⟩

/-- The second task is for the body of the closure that the first one calls. -/
inductive Body : Task ω → Task ω → Prop where
  | enter {name args env c bindings} {m m' : Machine ω} :
      m.hostFunction? env name = none →
      m.lookup env name = some (.closure c) →
      args.length = c.arity →
      Eval.evalParams m.entry [] c.params args env m.counted = .ok bindings m' →
      m'.depth < maxCallDepth →
      Body ⟨.call name args, env, m⟩
        ⟨c.body.node, (m'.openChild c.captured bindings).1,
          { (m'.openChild c.captured bindings).2 with depth := m'.depth + 1 }⟩

/-- The tasks that a task starts itself. -/
def Starts (t u : Task ω) : Prop := t.Operand u ∨ t.Body u

/-- The tasks that are started in the course of a task, itself included. -/
def Reaches : Task ω → Task ω → Prop := Relation.ReflTransGen Starts

/-! ## One step -/

theorem depth_of_evalParams {m m' : Machine ω} {params : List String} {args : List Node}
    {env : ScopeId} {bindings : Bindings}
    (h : Eval.evalParams m.entry [] params args env m.counted = .ok bindings m') :
    m'.depth = m.depth :=
  Discipline.Upholds.depth_of_ok (m := m.counted)
    ((Discipline.depth_kept m.depth).evalParams (Eval.enter_depth _ m.depth) args params env []
      (fun _ _ => trivial) (fun _ _ => trivial) trivial) h

/-- An operand is evaluated with as many calls in progress as the node it belongs to. -/
theorem Operand.spec {t u : Task ω} (h : t.Operand u) :
    u.node ∈ t.node.operands ∧ u.machine.depth = t.machine.depth := by
  have kept (m : Machine ω) : (Discipline.depth m.depth : Discipline ω).Kept :=
    Discipline.depth_kept m.depth
  have enters (m : Machine ω) : (Discipline.depth m.depth : Discipline ω).Enters m.entry :=
    Eval.enter_depth _ m.depth
  cases h with
  | define _ => exact ⟨by simp [Node.operands], rfl⟩
  | assign _ => exact ⟨by simp [Node.operands], rfl⟩
  | test => exact ⟨by simp [Node.operands], rfl⟩
  | @conseq test _ _ env m _ htest | @alt test _ _ env m _ htest =>
    exact ⟨by simp [Node.operands],
      (Eval.evalNode_depth (maxCallDepth - m.depth) m.depth test env).depth_of_ok htest⟩
  | @item done _ _ env _ m _ hdone =>
    exact ⟨by simp [Node.operands], ((kept m).evalBody (enters m) done env .unit trivial
      (fun _ _ => trivial) trivial).depth_of_ok hdone⟩
  | @hostArgument _ done _ _ env f _ _ m _ _ _ _ hdone _ =>
    exact ⟨by simp [Node.operands], Discipline.Upholds.depth_of_ok (m := m.counted)
      ((kept m).evalHostArgs (enters m) done f 0 env (fun _ _ => trivial) trivial) hdone⟩
  | argument _ _ _ hdone => exact ⟨by simp [Node.operands], depth_of_evalParams hdone⟩

/-- A body is evaluated with one more call in progress, and only below the limit. -/
theorem Body.spec {t u : Task ω} (h : t.Body u) :
    t.machine.depth < maxCallDepth ∧ u.machine.depth = t.machine.depth + 1 := by
  cases h with
  | enter _ _ _ hparams hlimit =>
    have hdepth := depth_of_evalParams hparams
    exact ⟨hdepth ▸ hlimit, congrArg (· + 1) hdepth⟩

/-- A call of a closure ends where its body ends, with the call closed again. -/
theorem Body.final_eq {t u : Task ω} (h : t.Body u) :
    t.final = { u.final with depth := u.final.depth - 1 } := by
  have hspec := h.spec
  cases h with
  | @enter name args env c bindings m m' hf hc hlen hparams hlimit =>
    have hbelow : m.depth < maxCallDepth := hspec.1
    have hdepth : m'.depth + 1 = m.depth + 1 := hspec.2
    obtain ⟨left, hleft⟩ : ∃ left, maxCallDepth - m.depth = left + 1 :=
      ⟨maxCallDepth - m.depth - 1, by omega⟩
    -- The budget from before the call, less one, is the budget that the body starts with.
    have hbudget : left = maxCallDepth - (m'.depth + 1) := by omega
    have hcall : eval (.call name args) env m = Eval.atDepth
        (Eval.evalNode (Eval.enter left) c.body.node (m'.openChild c.captured bindings).1)
        (m'.openChild c.captured bindings).2 := by
      change Eval.evalNode m.entry (.call name args) env m = _
      rw [Eval.evalNode_call_closure hf hc hlen, Eval.bind_of_ok hparams, Machine.entry, hleft]
      rfl
    calc (eval (.call name args) env).after m
      _ = (Eval.atDepth (Eval.evalNode (Eval.enter left) c.body.node
            (m'.openChild c.captured bindings).1)).after (m'.openChild c.captured bindings).2 := by
          rw [Eval.after, Eval.after, hcall]
      _ = _ := by
          rw [Eval.after_atDepth, hbudget]
          rfl

/-! ## All steps -/

/-- What decreases: the calls that may still be opened, then the size of the node. -/
noncomputable def measure (t : Task ω) : Nat × Nat :=
  (maxCallDepth - t.machine.depth, sizeOf t.node)

end Task

theorem Node.sizeOf_lt_of_mem_operands {node part : Node} (h : part ∈ node.operands) :
    sizeOf part < sizeOf node := by
  cases Node.isOperand_of_mem h with
  | define | assign =>
    simp only [Node.define.sizeOf_spec, Node.assign.sizeOf_spec]
    omega
  | test | conseq | alt =>
    simp only [Node.cond.sizeOf_spec]
    omega
  | item hmem | argument hmem =>
    have := List.sizeOf_lt_of_mem hmem
    simp only [Node.begin.sizeOf_spec, Node.call.sizeOf_spec]
    omega

namespace Task

/-- Every task that is started is smaller than the task that starts it. -/
theorem Starts.descends {t u : Task ω} (h : t.Starts u) :
    Prod.Lex (· < ·) (· < ·) u.measure t.measure := by
  rcases h with h | h
  · obtain ⟨hmem, hdepth⟩ := h.spec
    rw [measure, measure, hdepth]
    exact .right _ (Node.sizeOf_lt_of_mem_operands hmem)
  · obtain ⟨hbelow, hdepth⟩ := h.spec
    exact .left _ _ (by rw [hdepth]; omega)

theorem Starts.depth_le {t u : Task ω} (h : t.Starts u) (ht : t.machine.depth ≤ maxCallDepth) :
    u.machine.depth ≤ maxCallDepth := by
  rcases h with h | h
  · exact h.spec.2 ▸ ht
  · have := h.spec
    omega

/-- No task starts tasks without end. -/
theorem starts_accessible (t : Task ω) : Acc (fun u t : Task ω => t.Starts u) t := by
  have hwf : WellFounded (Prod.Lex (· < ·) (· < ·) : Nat × Nat → Nat × Nat → Prop) :=
    (Prod.lex Nat.lt_wfRel Nat.lt_wfRel).wf
  exact Subrelation.accessible (fun h => Starts.descends h) ((InvImage.wf measure hwf).apply t)

theorem Reaches.depth_le {s t : Task ω} (h : s.Reaches t) (hs : s.machine.depth ≤ maxCallDepth) :
    t.machine.depth ≤ maxCallDepth := by
  induction h with
  | refl => exact hs
  | tail _ hstep ih => exact hstep.depth_le ih

theorem final_depth (t : Task ω) : t.final.depth = t.machine.depth :=
  eval_depth t.node t.env t.machine

/-- A task that comes to an end, with every call that it opens closed again. -/
structure Terminates (s : Task ω) : Prop where
  /-- Evaluation obeys the recursion in which the count alone limits the calls; no alarm is raised,
  so the count never goes over the limit when a call is opened, nor below zero when it is closed. -/
  obeys : ∀ alarm, ObeysRecursion alarm (eval : Node → ScopeId → Eval ω Value)
  /-- That recursion has one answer for the task. -/
  determined : ∀ alarm ev, ObeysRecursion alarm ev → ev s.node s.env s.machine = s.result
  /-- All through the task, what is started is smaller than what starts it. -/
  descends : ∀ t u, s.Reaches t → t.Starts u → Prod.Lex (· < ·) (· < ·) u.measure t.measure
  /-- So starting tasks comes to an end. -/
  accessible : Acc (fun u t : Task ω => t.Starts u) s
  /-- All through the task the count is within the limit, and each part restores it. -/
  bounded : ∀ t, s.Reaches t →
    t.machine.depth ≤ maxCallDepth ∧ t.final.depth = t.machine.depth
  /-- All through the task, a call is in progress when one is closed. -/
  closes : ∀ t u, s.Reaches t → t.Body u →
    u.final.depth = t.machine.depth + 1 ∧ t.final = { u.final with depth := u.final.depth - 1 }
  /-- The count after the task is the one before it, whatever the task comes to. -/
  balanced : s.final.depth = s.machine.depth

end Task

/-- Every evaluation terminates and restores the count of calls in progress, however closures call
each other through the scopes, as long as the count is within the limit at the start. -/
theorem evaluation_terminates (node : Node) (env : ScopeId) (m : Machine ω)
    (hm : m.depth ≤ maxCallDepth) : (⟨node, env, m⟩ : Task ω).Terminates where
  obeys := eval_obeysRecursion
  determined _ _ h := eq_eval_of_obeysRecursion h node env m hm
  descends _ _ _ hstart := hstart.descends
  accessible := Task.starts_accessible _
  bounded t hreach := ⟨hreach.depth_le hm, t.final_depth⟩
  closes _ u _ hbody := ⟨u.final_depth.trans hbody.spec.2, hbody.final_eq⟩
  balanced := Task.final_depth _

/-- A function that does nothing but call itself, with one more call allowed. -/
def Task.runaway : Task Unit where
  node := .call "f" [.number ⟨"1", 1⟩]
  env := 0
  machine :=
    { globals := 0
      scopes := #[⟨[("f", .closure ⟨0, ["x"], ⟨"f", [.var "x"]⟩, 0⟩)], none, []⟩]
      calls := 0
      depth := 9999
      closures := 1
      world := () }

/-- The self-calling function is stopped by the limit, and the count is what it was. -/
theorem runaway_terminates : Task.runaway.machine.depth ≤ maxCallDepth ∧
    (∃ m, Task.runaway.result = .error (.bind (.recursionLimit "f" maxCallDepth)) m) ∧
    Task.runaway.Terminates :=
  ⟨by decide, ⟨_, rfl⟩, evaluation_terminates _ _ _ (by decide)⟩

end HostLisp
