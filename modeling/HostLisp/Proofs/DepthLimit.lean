import HostLisp.Library
import HostLisp.Proofs.CallDepth

/-!
# The limit cuts runs short

How many closure calls are in progress when an evaluation starts decides how many more it may open,
and nothing else.  So of two evaluations of the same node from the same scopes, the one that starts
with fewer calls in progress gets at least as far as the other.  If the other is not stopped by the
limit, the two are the same throughout: in the value or the error, in the scopes they leave, and in
how many calls they dispatch.

The count of dispatched calls is not even that much: no evaluation looks at it.

Both are comparisons of two runs on machines that differ in the two counts
(`Machine.SameButCounts`).  They differ in what is excused: where the budgets are not the same, the
run with the smaller one may be stopped by the limit.  No form catches an error, so an evaluation
that is stopped anywhere ends with that error, and it is enough to exclude it at the end.
-/

namespace HostLisp

variable {ω : Type}

/-! ## Machines with other counts -/

namespace Machine

/-- Machines that are the same but for the two counts of calls.  One has dispatched as many calls
beyond `calls₁` as the other beyond `calls₂`. -/
inductive SameButCounts (calls₁ calls₂ : Nat) : Machine ω → Machine ω → Prop where
  | mk (m : Machine ω) (more depth₁ depth₂ : Nat) :
    SameButCounts calls₁ calls₂ { m with calls := calls₁ + more, depth := depth₁ }
      { m with calls := calls₂ + more, depth := depth₂ }

theorem SameButCounts.eq {calls₁ calls₂ : Nat} {m₁ m₂ : Machine ω}
    (h : SameButCounts calls₁ calls₂ m₁ m₂) :
    calls₁ ≤ m₁.calls ∧
      m₂ = { m₁ with calls := calls₂ + (m₁.calls - calls₁), depth := m₂.depth } := by
  cases h with
  | mk m more depth₁ depth₂ =>
    refine ⟨Nat.le_add_right calls₁ more, ?_⟩
    simp only [Nat.add_sub_cancel_left]

end Machine

/-! ## Runs with other counts -/

namespace Comparison

/-- The evaluations of one node on machines that are the same but for the counts of calls. -/
def counts (calls₁ calls₂ : Nat) (excused : Error → Prop) : Comparison ω where
  machine := Machine.SameButCounts calls₁ calls₂
  scope _ := True
  value _ := True
  host _ := True
  excused := excused

variable {calls₁ calls₂ : Nat} {excused : Error → Prop}

theorem counts_kept : (counts calls₁ calls₂ excused : Comparison ω).Kept where
  view hm _ := by
    cases hm with
    | mk m more depth₁ depth₂ => exact ⟨rfl, fun _ _ => rfl, fun _ _ => rfl⟩
  constant _ := trivial
  lookup _ _ _ := trivial
  define {_ _ env name v} hm _ _ := by
    cases hm with
    | mk m more depth₁ depth₂ => exact .mk (m.updateBindings env ((name, v) :: ·)) more _ _
  assign {_ _ env name v id} hm _ _ _ := by
    cases hm with
    | mk m more depth₁ depth₂ => exact .mk (m.updateBindings id (·.replace name v)) more _ _
  lambda {_ _ env params body} hm _ := by
    cases hm with
    | mk m more depth₁ depth₂ =>
      exact .ok trivial (.mk (m.makeClosure params body env).2 more depth₁ depth₂)
  count hm := by
    cases hm with
    | mk m more depth₁ depth₂ => exact .mk m (more + 1) depth₁ depth₂
  hostFunction _ _ _ := trivial
  callHost {f _ shape values} _ _ _ m₁ m₂ hm := by
    cases hm with
    | mk m more depth₁ depth₂ =>
      have hworld : Machine.SameButCounts calls₁ calls₂ _ _ :=
        .mk { m with world := (f.call values m.world).2 } more depth₁ depth₂
      rw [Eval.callHost_eq, Eval.callHost_eq]
      cases Eval.hostResult f.name shape (f.call values m.world).1 with
      | ok v => exact .ok trivial hworld
      | error e => exact .error hworld

theorem counts_opens : (counts calls₁ calls₂ excused : Comparison ω).Opens where
  enter {_ _ c bindings} _ _ hm := by
    cases hm with
    | mk m more depth₁ depth₂ =>
      exact ⟨rfl, trivial, .mk (m.openChild c.captured bindings).2 more (depth₁ + 1) (depth₂ + 1)⟩
  exit hm := by
    cases hm with
    | mk m more depth₁ depth₂ => exact .mk m more (depth₁ - 1) (depth₂ - 1)

end Comparison

/-- With fewer calls in progress an evaluation does the same, unless the limit stops it. -/
theorem eval_depth_le (node : Node) (env : ScopeId) (m : Machine ω) {d₁ d₂ : Nat} (hle : d₂ ≤ d₁)
    (hlimit : ∀ name limit, (eval node env).answer { m with depth := d₁ } ≠
      .error (.bind (.recursionLimit name limit))) :
    (eval node env).answer { m with depth := d₂ } = (eval node env).answer { m with depth := d₁ } ∧
      (eval node env).after { m with depth := d₂ } =
        { (eval node env).after { m with depth := d₁ } with depth := d₂ } := by
  let C : Comparison ω :=
    .counts m.calls m.calls fun e => ∃ name limit, e = .bind (.recursionLimit name limit)
  have hm : C.machine { m with depth := d₁ } { m with depth := d₂ } := .mk m 0 d₁ d₂
  have hexcuses : ∀ name, C.excused (.bind (.recursionLimit name maxCallDepth)) :=
    fun name => ⟨name, maxCallDepth, rfl⟩
  have henters : C.Enters (Eval.enter (maxCallDepth - d₁)) (Eval.enter (maxCallDepth - d₂)) :=
    Comparison.counts_kept.enter_le Comparison.counts_opens hexcuses (by omega)
  have hsame : C.Same C.value (eval node env { m with depth := d₁ })
      (eval node env { m with depth := d₂ }) :=
    Comparison.counts_kept.evalNode henters node env trivial _ _ hm
  obtain ⟨hanswer, hafter⟩ := hsame.answer_eq fun e he hexcused => by
    obtain ⟨name, limit, rfl⟩ := hexcused
    exact hlimit name limit he
  obtain ⟨hcalls, heq⟩ := Machine.SameButCounts.eq hafter
  refine ⟨hanswer.symm, ?_⟩
  rw [heq, eval_depth, Nat.add_sub_cancel' hcalls]

/-- No evaluation looks at the count of dispatched calls. -/
theorem eval_calls (node : Node) (env : ScopeId) (m : Machine ω) (calls : Nat) :
    (eval node env).answer { m with calls } = (eval node env).answer m ∧
      m.calls ≤ ((eval node env).after m).calls ∧
      (eval node env).after { m with calls } = { (eval node env).after m with
        calls := calls + (((eval node env).after m).calls - m.calls) } := by
  let C : Comparison ω := .counts m.calls calls fun _ => False
  have hm : C.machine m { m with calls } := .mk m 0 m.depth m.depth
  have hsame : C.Same C.value (eval node env m) (eval node env { m with calls }) :=
    Comparison.counts_kept.evalNode (Comparison.counts_kept.enter Comparison.counts_opens _) node
      env trivial _ _ hm
  obtain ⟨hanswer, hafter⟩ := hsame.answer_eq fun _ _ => id
  obtain ⟨hcalls, heq⟩ := Machine.SameButCounts.eq hafter
  refine ⟨hanswer.symm, hcalls, ?_⟩
  rw [heq]
  simp only [eval_depth]

/-- The limit only cuts runs short.  If an evaluation that starts with `d₁` calls in progress is not
stopped by the limit, then with fewer calls in progress it comes to the same value or error and
leaves the same machine, with as many calls dispatched.  How many calls were dispatched before it
makes no difference, whatever it comes to: it dispatches as many more. -/
theorem depth_limit_only_cuts_short (node : Node) (env : ScopeId) (m : Machine ω) :
    (∀ d₁ d₂, d₂ ≤ d₁ →
      (∀ name limit, (eval node env).answer { m with depth := d₁ } ≠
        .error (.bind (.recursionLimit name limit))) →
      (eval node env).answer { m with depth := d₂ } =
        (eval node env).answer { m with depth := d₁ } ∧
      (eval node env).after { m with depth := d₂ } =
        { (eval node env).after { m with depth := d₁ } with depth := d₂ }) ∧
    ∀ calls, (eval node env).answer { m with calls } = (eval node env).answer m ∧
      m.calls ≤ ((eval node env).after m).calls ∧
      (eval node env).after { m with calls } = { (eval node env).after m with
        calls := calls + (((eval node env).after m).calls - m.calls) } :=
  ⟨fun _ _ hle hlimit => eval_depth_le node env m hle hlimit, eval_calls node env m⟩

/-- A machine whose global scope binds `sum` to a function that adds up the numbers from its
argument down to zero. -/
def Machine.summing : Machine Unit where
  globals := 0
  scopes := #[⟨[("sum", .closure ⟨0, ["n"],
      ⟨"+", [.var "n", .cond (.call ">" [.var "n", .number ⟨"0", 0⟩])
        (.call "sum" [.call "-" [.var "n", .number ⟨"1", 1⟩]]) (.number ⟨"0", 0⟩)]⟩, 0⟩)],
    some Library.registry, []⟩]
  calls := 5
  depth := 0
  closures := 1
  world := ()

/-- The program `(sum 3)`, which takes four calls one inside the other. -/
def Node.sumOfThree : Node := .call "sum" [.number ⟨"3", 3⟩]

/-- With 9997 calls in progress the sum is stopped.  With 9996 it just gets through, and so it does
with fewer, in fifteen calls. -/
theorem sumOfThree_is_not_cut_short :
    ((eval .sumOfThree 0).answer { Machine.summing with depth := 9997 } matches
      .error (.bind (.recursionLimit "sum" _))) ∧
    ((eval .sumOfThree 0).answer { Machine.summing with depth := 9996 }).toOption.bind Value.int?
      = some 6 ∧
    ((eval .sumOfThree 0).answer { Machine.summing with depth := 0 }).toOption.bind Value.int?
      = some 6 ∧
    (eval .sumOfThree 0).after { Machine.summing with depth := 0 }
      = { (eval .sumOfThree 0).after { Machine.summing with depth := 9996 } with depth := 0 } ∧
    ((eval .sumOfThree 0).after { Machine.summing with calls := 0 }).calls = 15 := by
  obtain ⟨hdepth, hcalls⟩ := depth_limit_only_cuts_short .sumOfThree 0 Machine.summing
  have hthrough : ((eval .sumOfThree 0).answer
      { Machine.summing with depth := 9996 }).toOption.bind Value.int? = some 6 := by
    decide +kernel
  have hcount : ((eval .sumOfThree 0).after Machine.summing).calls = 20 := by decide +kernel
  have hlimit : ∀ name limit, (eval .sumOfThree 0).answer { Machine.summing with depth := 9996 } ≠
      .error (.bind (.recursionLimit name limit)) := by
    intro name limit hstopped
    rw [hstopped] at hthrough
    cases hthrough
  obtain ⟨hanswer, hafter⟩ := hdepth 9996 0 (by decide) hlimit
  refine ⟨by decide +kernel, hthrough, ?_, hafter, ?_⟩
  · rw [hanswer, hthrough]
  · rw [(hcalls 0).2.2, hcount]
    rfl

end HostLisp
