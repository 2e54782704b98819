import HostLisp.Proofs.Comparison

/-!
# The depth of closure calls

A closure can call itself through a scope that it changes, so nothing in the text of a program
bounds how long it runs.  What bounds it is the count of closure calls in progress.  Evaluation is
*defined* by recursion on how many more calls may be opened, a number that the machine does not
hold; the machine holds the count itself, and entering a closure is meant to ask the count.  This
file shows that the two are the same.

* Evaluation leaves the count as it found it (`eval_depth`), so it enters closures only with the
  count that it starts with, and two ways to enter them that agree there lead to the same
  (`Eval.evalNode_agree`).
* `Eval.enterCounted` enters a closure by asking the count, raises an alarm where the count would
  leave its range, and hands the body to a function it is given.  Evaluation obeys the recursion
  that this makes, whatever the alarm is (`eval_obeysRecursion`), and nothing else does
  (`eq_eval_of_obeysRecursion`).  So the budget of `Eval.enter` shows in no result, and the alarm is
  never raised.
-/

namespace HostLisp

variable {ω : Type} {α β : Type}

/-! ## The count is restored -/

theorem Machine.define_depth {m m' : Machine ω} {env : ScopeId} {name : String} {v : Value}
    (h : m.define env name v = .ok m') : m'.depth = m.depth := by
  obtain ⟨-, rfl⟩ := Machine.define_eq_ok h
  rfl

theorem Machine.assign_depth {m m' : Machine ω} {env : ScopeId} {name : String} {v : Value}
    (h : m.assign env name v = .ok m') : m'.depth = m.depth := by
  obtain ⟨_, -, rfl⟩ := Machine.assign_eq_ok h
  rfl

/-- There are `d` closure calls in progress; nothing else is asked of an evaluation. -/
def Discipline.depth (d : Nat) : Discipline ω where
  machine m := m.depth = d
  scope _ := True
  node _ := True
  value _ := True
  host _ := True
  error _ := True

theorem Discipline.depth_kept (d : Nat) : (Discipline.depth d : Discipline ω).Kept where
  operand _ _ _ := trivial
  bindError _ := trivial
  nestedList _ := trivial
  constant _ := trivial
  lookup _ _ _ := trivial
  define _ hm _ _ h := (Machine.define_depth h).trans hm
  assign _ hm _ _ h := (Machine.assign_depth h).trans hm
  lambda _ hm _ := ⟨trivial, hm⟩
  count hm := hm
  hostFunction _ _ _ := trivial
  callHost _ _ _ m hm :=
    (Eval.ends_callHost _ _ _ m).imp (fun _ _ h => ⟨trivial, h ▸ hm⟩) fun _ _ h => ⟨trivial, h ▸ hm⟩

theorem Eval.after_atDepth (body : Eval ω Value) (m : Machine ω) :
    (Eval.atDepth body).after m =
      { body.after { m with depth := m.depth + 1 } with
        depth := (body.after { m with depth := m.depth + 1 }).depth - 1 } := by
  unfold Eval.after Eval.atDepth
  cases body { m with depth := m.depth + 1 } <;> rfl

/-- What is opened is closed, also when the body fails. -/
theorem Eval.enter_depth (left d : Nat) :
    (Discipline.depth d : Discipline ω).Enters (Eval.enter left) := by
  induction left generalizing d with
  | zero => exact fun name c bindings _ _ => (Discipline.depth_kept d).refuse _
  | succ left ih =>
    intro name c bindings _ _ m hm
    rw [Eval.ends_enter]
    have hbody := (Discipline.depth_kept (d + 1)).evalNode (ih (d + 1)) c.body.node m.scopes.size
      trivial trivial (m.entered c bindings) (congrArg (· + 1) hm)
    exact hbody.imp (fun v m' hv => ⟨trivial, Nat.sub_eq_of_eq_add hv.2⟩)
      fun e m' he => ⟨trivial, Nat.sub_eq_of_eq_add he.2⟩

theorem Eval.evalNode_depth (left d : Nat) (node : Node) (env : ScopeId) :
    (Discipline.depth d : Discipline ω).Upholds (Eval.evalNode (Eval.enter left) node env)
      fun _ => True :=
  (Discipline.depth_kept d).evalNode (Eval.enter_depth left d) node env trivial trivial

theorem Discipline.Upholds.depth_of_ok {x : Eval ω α} {Q : α → Prop} {m m' : Machine ω} {a : α}
    (h : (Discipline.depth m.depth).Upholds x Q) (hx : x m = .ok a m') : m'.depth = m.depth := by
  have hends := h m rfl
  rw [Eval.Ends, hx] at hends
  exact hends.2

/-- The count of closure calls in progress is the same after an evaluation as before it, whatever
the evaluation comes to. -/
theorem eval_depth (node : Node) (env : ScopeId) (m : Machine ω) :
    ((eval node env).after m).depth = m.depth :=
  (Eval.evalNode_depth (maxCallDepth - m.depth) m.depth node env).after rfl

/-! ## The count decides -/

namespace Eval

/-- Evaluates a call with one more closure call in progress, and raises `alarm` where the count goes
over the limit or would have to go below zero. -/
def atCountedDepth (alarm : Error) (body : Eval ω Value) : Eval ω Value := fun m =>
  if maxCallDepth < m.depth + 1 then .error alarm m
  else
    match body { m with depth := m.depth + 1 } with
    | .ok value m =>
      if m.depth = 0 then .error alarm m else .ok value { m with depth := m.depth - 1 }
    | .error e m =>
      if m.depth = 0 then .error alarm m else .error e { m with depth := m.depth - 1 }

/-- Enters a closure by asking the count, and evaluates its body with `ev`. -/
def enterCounted (alarm : Error) (ev : Node → ScopeId → Eval ω Value) : Enter ω :=
  fun name closure bindings => do
    if maxCallDepth ≤ (← get).depth then refuse (.recursionLimit name maxCallDepth)
    else do
      let env ← modifyGet fun m => m.openChild closure.captured bindings
      atCountedDepth alarm (ev closure.body.node env)

/-- Two computations do the same with `d` closure calls in progress. -/
def AgreeAt (d : Nat) (x y : Eval ω α) : Prop := ∀ m, m.depth = d → x m = y m

end Eval

/-- The same machine on both sides, with `d` closure calls in progress. -/
def Comparison.atDepth (d : Nat) : Comparison ω where
  machine m₁ m₂ := m₁ = m₂ ∧ m₁.depth = d
  scope _ := True
  value _ := True
  host _ := True
  excused _ := False

theorem Comparison.atDepth_kept (d : Nat) : (Comparison.atDepth d : Comparison ω).Kept where
  view hm _ := hm.1 ▸ ⟨rfl, fun _ _ => rfl, fun _ _ => rfl⟩
  constant _ := trivial
  lookup _ _ _ := trivial
  define hm _ _ := ⟨by rw [hm.1], hm.2⟩
  assign hm _ _ _ := ⟨by rw [hm.1], hm.2⟩
  lambda {m₁ _ _ _ _} hm _ := by
    obtain ⟨rfl, hd⟩ := hm
    exact .ok trivial ⟨rfl, hd⟩
  count hm := ⟨by rw [hm.1], hm.2⟩
  hostFunction _ _ _ := trivial
  callHost {f _ shape values} _ _ _ m₁ _ hm := by
    obtain ⟨rfl, hd⟩ := hm
    rw [Eval.callHost_eq]
    cases Eval.hostResult f.name shape (f.call values m₁.world).1 with
    | ok v => exact .ok trivial ⟨rfl, hd⟩
    | error e => exact .error ⟨rfl, hd⟩

namespace Eval

/-- Computations that agree, and of which one restores the count, tally. -/
theorem AgreeAt.tallies {d : Nat} {x y : Eval ω α} {Q : α → Prop} (h : AgreeAt d x y)
    (hx : (Discipline.depth d).Upholds x Q) : (Comparison.atDepth d).Tallies x y Q := by
  rintro m _ ⟨rfl, hd⟩
  have hends := hx m hd
  unfold Ends at hends
  rw [← h m hd]
  split at hends
  case h_1 a m' heq => exact heq ▸ .ok hends.1 ⟨rfl, hends.2⟩
  case h_2 e m' heq => exact heq ▸ .error ⟨rfl, hends.2⟩

theorem agreeAt_of_tallies {d : Nat} {x y : Eval ω α} {Q : α → Prop}
    (h : (Comparison.atDepth d).Tallies x y Q) : AgreeAt d x y := by
  intro m hd
  have hends := h m m ⟨rfl, hd⟩
  generalize x m = r₁, y m = r₂ at hends
  cases hends with
  | ok _ hm => rw [hm.1]
  | error hm => rw [hm.1]
  | excused he => exact he.elim

/-- Evaluation depends on how closures are entered only with the count that it starts with. -/
theorem evalNode_agree {d : Nat} {e₁ e₂ : Enter ω}
    (h : ∀ name c bindings, AgreeAt d (e₁ name c bindings) (e₂ name c bindings))
    (he : (Discipline.depth d).Enters e₁) (node : Node) (env : ScopeId) :
    AgreeAt d (evalNode e₁ node env) (evalNode e₂ node env) := by
  have henters : (Comparison.atDepth d).Enters e₁ e₂ := fun name c bindings hc hb =>
    (h name c bindings).tallies (he name c bindings hc hb)
  exact agreeAt_of_tallies ((Comparison.atDepth_kept d).evalNode henters node env trivial)

theorem AgreeAt.trans {d : Nat} {x y z : Eval ω α} (hxy : AgreeAt d x y) (hyz : AgreeAt d y z) :
    AgreeAt d x z :=
  fun m hm => (hxy m hm).trans (hyz m hm)

theorem AgreeAt.atCountedDepth {d : Nat} {alarm : Error} {x y : Eval ω Value}
    (h : AgreeAt (d + 1) x y) :
    AgreeAt d (Eval.atCountedDepth alarm x) (Eval.atCountedDepth alarm y) := by
  intro m hm
  unfold Eval.atCountedDepth
  rw [h { m with depth := m.depth + 1 } (congrArg (· + 1) hm)]

/-- Below the limit the alarm is never raised. -/
theorem atDepth_agree_atCountedDepth {d : Nat} (alarm : Error) {body : Eval ω Value}
    (hd : d < maxCallDepth) (h : (Discipline.depth (d + 1)).Upholds body fun _ => True) :
    AgreeAt d (atDepth body) (atCountedDepth alarm body) := by
  intro m hm
  have hbody := h { m with depth := m.depth + 1 } (congrArg (· + 1) hm)
  have hlimit : ¬ maxCallDepth < m.depth + 1 := by omega
  unfold Ends at hbody
  unfold atDepth atCountedDepth
  rw [if_neg hlimit]
  split at hbody
  case h_1 v m' hx =>
    have hpos : m'.depth = d + 1 := hbody.2
    simp only [hx, if_neg (show ¬ m'.depth = 0 by omega)]
  case h_2 e m' hx =>
    have hpos : m'.depth = d + 1 := hbody.2
    simp only [hx, if_neg (show ¬ m'.depth = 0 by omega)]

/-- With `d` calls in progress, a budget of what is left enters closures as the count does. -/
theorem enter_agree_enterCounted (alarm : Error) (d : Nat) (name : String) (c : Closure)
    (bindings : Bindings) :
    AgreeAt d (enter (maxCallDepth - d) name c bindings : Eval ω Value)
      (enterCounted alarm eval name c bindings) := by
  intro m hm
  by_cases hfull : maxCallDepth ≤ d
  · have hleft : maxCallDepth - d = 0 := by omega
    rw [hleft, enter, enterCounted]
    change _ = (if maxCallDepth ≤ m.depth then _ else _ : Eval ω Value) m
    rw [if_pos (hm ▸ hfull)]
  · obtain ⟨left, hleft⟩ : ∃ left, maxCallDepth - d = left + 1 :=
      ⟨maxCallDepth - d - 1, by omega⟩
    have hbelow : maxCallDepth - (d + 1) = left := by omega
    -- The body runs with the budget that its own count leaves, which is what `eval` gives it.
    have hbody : ∀ env, AgreeAt (d + 1) (evalNode (enter left) c.body.node env : Eval ω Value)
        (eval c.body.node env) := by
      intro env m' hm'
      rw [← hbelow, ← hm']
      rfl
    rw [hleft, enter, enterCounted]
    change _ = (if maxCallDepth ≤ m.depth then _ else _ : Eval ω Value) m
    rw [if_neg (hm ▸ hfull)]
    exact ((atDepth_agree_atCountedDepth alarm (by omega) (evalNode_depth left (d + 1) _ _)).trans
      (hbody _).atCountedDepth) (m.openChild c.captured bindings).2 hm

/-- Asking the count, bodies are evaluated one call deeper, and not at all past the limit. -/
theorem enterCounted_agree {alarm : Error} {d : Nat} {ev₁ ev₂ : Node → ScopeId → Eval ω Value}
    (h : d < maxCallDepth → ∀ node env, AgreeAt (d + 1) (ev₁ node env) (ev₂ node env))
    (name : String) (c : Closure) (bindings : Bindings) :
    AgreeAt d (enterCounted alarm ev₁ name c bindings)
      (enterCounted alarm ev₂ name c bindings) := by
  intro m hm
  rw [enterCounted, enterCounted]
  change (if maxCallDepth ≤ m.depth then _ else _ : Eval ω Value) m =
    (if maxCallDepth ≤ m.depth then _ else _ : Eval ω Value) m
  split
  case isTrue => rfl
  case isFalse hbelow =>
    exact (h (by omega) c.body.node _).atCountedDepth (m.openChild c.captured bindings).2 hm

end Eval

/-- A function that obeys the recursion of evaluation, asking the count and with an alarm where the
count would leave its range, for all machines whose count is within the limit. -/
def ObeysRecursion (alarm : Error) (ev : Node → ScopeId → Eval ω Value) : Prop :=
  ∀ node env m, m.depth ≤ maxCallDepth →
    ev node env m = Eval.evalNode (Eval.enterCounted alarm ev) node env m

/-- Evaluation is a solution of its own recursion, whatever the alarm is. -/
theorem eval_obeysRecursion (alarm : Error) :
    ObeysRecursion alarm (eval : Node → ScopeId → Eval ω Value) := by
  intro node env m _
  exact Eval.evalNode_agree (Eval.enter_agree_enterCounted alarm m.depth)
    (Eval.enter_depth (maxCallDepth - m.depth) m.depth) node env m rfl

/-- The recursion has no other solution, so it determines every result. -/
theorem eq_eval_of_obeysRecursion {alarm : Error} {ev : Node → ScopeId → Eval ω Value}
    (h : ObeysRecursion alarm ev) (node : Node) (env : ScopeId) (m : Machine ω)
    (hm : m.depth ≤ maxCallDepth) : ev node env m = eval node env m := by
  -- Induction on the calls that may still be opened.  A body is evaluated with one less, so it may
  -- be assumed that the two evaluations of it are the same.
  obtain ⟨left, hleft⟩ : ∃ left, maxCallDepth - m.depth = left := ⟨_, rfl⟩
  induction left using Nat.strongRecOn generalizing node env m with
  | ind left ih =>
    have hdeeper : m.depth < maxCallDepth → ∀ node env,
        Eval.AgreeAt (m.depth + 1) (eval node env) (ev node env) := by
      intro hlt node env m' hm'
      exact (ih (maxCallDepth - m'.depth) (by omega) node env m' (by omega) rfl).symm
    have henter : ∀ name c bindings, Eval.AgreeAt m.depth
        (Eval.enter (maxCallDepth - m.depth) name c bindings)
        (Eval.enterCounted alarm ev name c bindings) :=
      fun name c bindings => (Eval.enter_agree_enterCounted alarm m.depth name c bindings).trans
        (Eval.enterCounted_agree hdeeper name c bindings)
    rw [h node env m hm]
    exact (Eval.evalNode_agree henter (Eval.enter_depth _ m.depth) node env m rfl).symm

end HostLisp
