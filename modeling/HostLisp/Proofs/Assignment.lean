import HostLisp.Proofs.Contents

/-!
# Only assignment changes values

Definitions, parameters and assignments all write to the same scopes, and every call of a closure
may run any of them in a scope that others see too.  Still a name that is bound keeps its value
until something assigns to that very name: a definition is refused where the name is bound already,
and parameters go into a scope that was not there before.

What a node can assign to is read off its text (`Node.assigned`).  The text of a call does not show
the body of the closure that is called, so the closures in the machine have to be looked at as well
(`Machine.Spares`).  Those that are made on the way come from text that was looked at.
-/

namespace HostLisp

variable {ω : Type}

/-! ## Assignments in a node -/

mutual

/-- The names that a node assigns to, assignments in the bodies of `lambda`s included. -/
def Node.assigned : Node → List String
  | .assign name value => name :: value.assigned
  | .define _ value => value.assigned
  | .cond test conseq alt => test.assigned ++ conseq.assigned ++ alt.assigned
  | .list nodes | .begin nodes | .call _ nodes | .lambda _ _ nodes => Node.assignedAll nodes
  | .var _ | .number _ | .str _ | .bool _ => []

/-- The names that several nodes assign to. -/
def Node.assignedAll : List Node → List String
  | [] => []
  | node :: rest => node.assigned ++ Node.assignedAll rest

end

theorem Node.assigned_subset_all {node : Node} {nodes : List Node} (h : node ∈ nodes) :
    node.assigned ⊆ Node.assignedAll nodes := by
  induction nodes with
  | nil => cases h
  | cons first rest ih =>
    rw [Node.assignedAll]
    rcases List.mem_cons.1 h with rfl | h
    · exact List.subset_append_left _ _
    · exact List.subset_append_of_subset_right _ (ih h)

theorem Node.assigned_subset_of_operand {node part : Node} (h : part ∈ node.operands) :
    part.assigned ⊆ node.assigned := by
  cases Node.isOperand_of_mem h with
  | define | assign | test | conseq | alt => simp [Node.assigned]
  | item hmem | argument hmem =>
    rw [Node.assigned]
    exact Node.assigned_subset_all hmem

/-- An expression of a program assigns to nothing that the program does not assign to. -/
theorem Node.assigned_subset_of_toplevel {program node : Node} (h : node ∈ program.toplevel) :
    node.assigned ⊆ program.assigned := by
  unfold Node.toplevel at h
  split at h
  case h_1 children =>
    rw [Node.assigned]
    exact Node.assigned_subset_all h
  case h_2 =>
    rw [List.mem_singleton.1 h]
    exact List.Subset.refl _

/-! ## Values that stay -/

namespace Machine

variable {m m' m'' : Machine ω} {env : ScopeId} {x name : String} {v : Value}

/-- The scopes that bind `x` in the first machine bind it in the second, to the same value. -/
def Retains (x : String) (m m' : Machine ω) : Prop :=
  ∀ id v, (m.bindings id).get? x = some v → (m'.bindings id).get? x = some v

/-- Whatever is called in the machine, nothing assigns to `x`: no closure that is bound does, and
host functions return no closures but such as they are given. -/
def Spares (x : String) (m : Machine ω) : Prop :=
  m.Holds (Value.Within fun body => x ∉ body.assigned) ∧ m.Offers Registry.ReturnsArguments

theorem Retains.trans (h : m.Retains x m') (h' : m'.Retains x m'') : m.Retains x m'' :=
  fun id v hv => h' id v (h id v hv)

theorem Retains.of_scopes_eq (h : m'.scopes = m.scopes) : m.Retains x m' := by
  intro id v hv
  rwa [bindings, h]

/-- A definition is refused if the scope binds the name. -/
theorem Retains.define (h : m.define env name v = .ok m') : m.Retains x m' := by
  obtain ⟨hlocal, rfl⟩ := define_eq_ok h
  intro id w hw
  rw [bindings_updateBindings]
  split
  case isFalse => exact hw
  case isTrue henv =>
    have hne : x ≠ name := by
      rintro rfl
      simp [isLocal, Bindings.contains, henv.1, hw] at hlocal
    rw [Bindings.get?, List.lookup_cons, beq_eq_false_iff_ne.2 hne]
    exact hw

/-- An assignment to another name leaves `x` alone. -/
theorem Retains.assign (hne : x ≠ name) (h : m.assign env name v = .ok m') : m.Retains x m' := by
  obtain ⟨holder, -, rfl⟩ := assign_eq_ok h
  intro id w hw
  rw [bindings_updateBindings]
  split
  · rw [Bindings.get?_replace, if_neg hne]
    exact hw
  · exact hw

/-- Parameters are bound in a new scope. -/
theorem Retains.openChild (bindings : Bindings) : m.Retains x (m.openChild env bindings).2 := by
  intro id w hw
  have hne : id ≠ m.scopes.size := by
    rintro rfl
    rw [bindings_of_size_le (Nat.le_refl _)] at hw
    cases hw
  rw [Machine.openChild, bindings_openScope, if_neg hne]
  exact hw

theorem spares_new {registry : Registry ω} (hregistry : registry.ReturnsArguments) (world : ω) :
    (new registry world).Spares x :=
  ⟨holds_new registry world, offers_new hregistry world⟩

end Machine

/-! ## Evaluation without assignments to a name -/

/-- Machines and programs in which nothing assigns to `x`. -/
def Contents.sparing (x : String) : Contents ω where
  node n := x ∉ n.assigned
  value := Value.Within fun body => x ∉ body.assigned
  host := HostFunction.ReturnsArguments

theorem Contents.sparing_closed (x : String) : (sparing x : Contents ω).Closed where
  operand hn part hpart hx := hn (Node.assigned_subset_of_operand hpart hx)
  constant {v} h := by
    have hk : v.kind ≠ .closure := fun hk => by simp [hk] at h
    exact Value.within_of_kind (P := fun body => x ∉ body.assigned) hk
  lambda {c} hn := by
    rintro _ ⟨⟩ hx
    exact hn hx
  body hc := hc _ rfl
  answer {f values world v} hf hfits hvalues hv := by
    rintro c rfl
    rcases hvalues _ (hf values world c hfits hv) with hwithin | ⟨u, hu⟩
    · exact hwithin c rfl
    · cases hu

theorem Contents.sparing_moves (x : String) :
    (sparing x : Contents ω).discipline.Moves (Machine.Retains x) where
  trans := Machine.Retains.trans
  same := Machine.Retains.of_scopes_eq
  define _ h := Machine.Retains.define h
  assign hn h := by
    refine Machine.Retains.assign ?_ h
    rintro rfl
    exact hn (by simp [Node.assigned])
  openChild _ _ bindings := Machine.Retains.openChild bindings

/-- A name keeps its value wherever it is bound, as long as nothing assigns to it.  So it is in an
evaluation, from its beginning over all that is evaluated on the way to its end, and in a session
from any state to the last; no two states of a session disagree about a value.  If its programs
assign to nothing, this goes for all names. -/
theorem values_change_by_assignment_only (x : String) :
    (∀ (node : Node) (env : ScopeId) (m : Machine ω), x ∉ node.assigned → m.Spares x →
      ∀ t, (⟨node, env, m⟩ : Task ω).Reaches t →
        m.Retains x t.machine ∧ t.machine.Retains x t.final ∧
          t.final.Retains x (⟨node, env, m⟩ : Task ω).final) ∧
    (∀ (m : Machine ω) (rounds : List Round), m.Spares x →
      (∀ r ∈ rounds, ∀ program, parse r.source = .ok program → x ∉ program.assigned) →
      ∀ m₁, m.Passes rounds m₁ → m₁.Retains x (m.afterRounds rounds) ∧
        ∀ m₂ id v₁ v₂, m.Passes rounds m₂ → (m₁.bindings id).get? x = some v₁ →
          (m₂.bindings id).get? x = some v₂ → v₁ = v₂) ∧
    (∀ (registry : Registry ω) world, registry.ReturnsArguments →
      (Machine.new registry world).Spares x) ∧
    (Library.registry : Registry ω).ReturnsArguments := by
  have hclosed := Contents.sparing_closed (ω := ω) x
  have hsustains := hclosed.sustains (Contents.sparing_moves x)
  refine ⟨fun node env m hnode hm t ht => ?_, fun m rounds hm hrounds => ?_,
    fun registry world h => Machine.spares_new h world, Library.registry_returnsArguments⟩
  · have hallows : (Contents.sparing x : Contents ω).discipline.Allows ⟨node, env, m⟩ :=
      { machine := hm, scope := trivial, node := hnode }
    exact hsustains.moves.between hsustains.kept hsustains.opens hallows ht
  · have hadmits : (Contents.sparing x : Contents ω).discipline.Admits rounds :=
      fun r hr program hparse n hn hx =>
        hrounds r hr program hparse (Node.assigned_subset_of_toplevel hn hx)
    have hretains : ∀ m₁, m.Passes rounds m₁ → m₁.Retains x (m.afterRounds rounds) :=
      fun m₁ h₁ => (h₁.course hsustains hadmits hm).2
    refine fun m₁ h₁ => ⟨hretains m₁ h₁, fun m₂ id v₁ v₂ h₂ hv₁ hv₂ => ?_⟩
    have hfinal₁ := hretains m₁ h₁ id v₁ hv₁
    have hfinal₂ := hretains m₂ h₂ id v₂ hv₂
    exact Option.some.inj (hfinal₁.symm.trans hfinal₂)

/-- A machine with a function `raise` that assigns to `count` and has a parameter `limit`. -/
def Machine.raising : Machine Unit where
  globals := 0
  scopes := #[
    ⟨[("raise", .closure ⟨0, ["limit"],
        ⟨"+", [.begin [.assign "count" (.var "limit"), .var "count"], .var "limit"]⟩, 0⟩),
      ("count", .int 0), ("limit", .int 10)], some Library.registry, []⟩]
  calls := 0
  depth := 0
  closures := 1
  world := ()

theorem Machine.raising_spares_limit : Machine.raising.Spares "limit" := by
  constructor
  · intro id b hb
    match id, hb with
    | 0, hb =>
      have hmem : b ∈ [_, _, _] := hb
      simp only [List.mem_cons, List.not_mem_nil, or_false] at hmem
      rcases hmem with rfl | rfl | rfl <;> rintro c ⟨⟩
      decide
    | _ + 1, hb => cases hb
  · intro id r hr
    match id, hr with
    | 0, hr =>
      cases hr
      exact Library.registry_returnsArguments
    | _ + 1, hr => cases hr

/-- The call `(raise 3)` binds `limit` once more and changes `count`.  All the while the first
`limit` is 10.  A new machine has nothing in it that could change that. -/
theorem raising_retains_limit :
    let t : Task Unit := ⟨.call "raise" [.number ⟨"3", 3⟩], 0, Machine.raising⟩
    let rounds : List Round := [⟨"(raise 3)", .unlimited⟩]
    (∀ u, t.Reaches u → (u.machine.bindings 0).get? "limit" = some (.int 10)) ∧
      (∀ m v, Machine.raising.Passes rounds m → (m.bindings 0).get? "limit" = some v →
        v = .int 10) ∧
      ((t.final.bindings 0).get? "count").bind Value.int? = some 3 ∧
      (Machine.new Library.registry ()).Spares "limit" := by
  intro t rounds
  have hlimit : (Machine.raising.bindings 0).get? "limit" = some (.int 10) := rfl
  obtain ⟨heval, hsession, hnew, hlibrary⟩ :=
    values_change_by_assignment_only (ω := Unit) "limit"
  refine ⟨fun u hu => ?_, fun m v hm hv => ?_, by decide +kernel, hnew _ () hlibrary⟩
  · obtain ⟨hretains, -⟩ := heval t.node 0 Machine.raising (by decide)
      Machine.raising_spares_limit u hu
    exact hretains 0 _ hlimit
  · have hparse : parse "(raise 3)" = .ok (.list [t.node]) := by rfl
    have hassigned : ∀ r ∈ rounds, ∀ program, parse r.source = .ok program →
        "limit" ∉ program.assigned := by
      intro r hr program hprogram
      obtain rfl := List.mem_singleton.1 hr
      cases hparse.symm.trans hprogram
      decide
    have hstart : Machine.raising.Passes rounds Machine.raising := .between (List.nil_prefix)
    exact (hsession _ rounds Machine.raising_spares_limit hassigned m hm).2 _ 0 v _ hstart hv hlimit

end HostLisp
