import HostLisp.Library
import HostLisp.Proofs.Evaluation
import HostLisp.Proofs.Machine

/-!
# How scopes grow

Scopes are shared: a closure keeps the scope it was made in, and whoever calls it runs code inside
that scope.  Still an evaluation can bring new names only into the scope that it takes place in, and
of these only the ones that its own text defines.  What a closure defines goes into the scope that
was opened for the call, and what is set was bound before.

`Machine.Grows` says how a machine may differ from an earlier one, given which names may be new in
which scope.  It composes (`Machine.Grows.trans`), and each operation of the machine has its own
instance of it.  Evaluation inside one body is then a discipline, kept relative to the machine at
the start.  The step from body to body (`Eval.enter_growth`) starts a new one: relative to the
caller, the scope of the callee is not there yet, so whatever is defined in it is nothing new.
-/

namespace HostLisp

/-! ## Definitions in a node -/

mutual

/-- The names that a node defines, definitions in the bodies of `lambda`s apart. -/
def Node.defined : Node → List String
  | .define name value => name :: value.defined
  | .assign _ value => value.defined
  | .cond test conseq alt => test.defined ++ conseq.defined ++ alt.defined
  | .list nodes | .begin nodes | .call _ nodes => Node.definedAll nodes
  | .var _ | .number _ | .str _ | .bool _ | .lambda _ _ _ => []

/-- The names that several nodes define. -/
def Node.definedAll : List Node → List String
  | [] => []
  | node :: rest => node.defined ++ Node.definedAll rest

end

theorem Node.mem_definedAll_of_mem {node : Node} {nodes : List Node} (h : node ∈ nodes)
    {x : String} (hx : x ∈ node.defined) : x ∈ Node.definedAll nodes := by
  induction nodes with
  | nil => cases h
  | cons first rest ih =>
    rw [Node.definedAll, List.mem_append]
    rcases List.mem_cons.1 h with rfl | h
    · exact .inl hx
    · exact .inr (ih h)

theorem Node.mem_defined_of_operand {node part : Node} (h : part ∈ node.operands) {x : String}
    (hx : x ∈ part.defined) : x ∈ node.defined := by
  cases Node.isOperand_of_mem h with
  | define | assign | test | conseq | alt => simp [Node.defined, hx]
  | item hmem | argument hmem =>
    rw [Node.defined]
    exact Node.mem_definedAll_of_mem hmem hx

/-! ## Machines that grow -/

/-- Rebinding leaves the names as they are. -/
theorem Bindings.map_replace (b : Bindings) (name : String) (value : Value) :
    (b.replace name value).map (·.1) = b.map (·.1) := by
  unfold Bindings.replace
  rw [List.map_map]
  refine List.map_congr_left fun entry _ => ?_
  simp only [Function.comp_apply]
  split
  case isTrue h => exact h.symm
  case isFalse => rfl

namespace Machine

variable {ω : Type} {m m₀ m' : Machine ω} {env id : ScopeId} {name x : String} {v : Value}
  {may may' : ScopeId → String → Prop}

/-- The names that a scope binds, latest first. -/
def localNames (m : Machine ω) (id : ScopeId) : List String := (m.bindings id).map (·.1)

theorem isLocal_iff_mem : m.isLocal id x = true ↔ x ∈ m.localNames id := by
  unfold isLocal Bindings.contains Bindings.get? localNames
  rw [List.lookup_isSome_iff, List.mem_map]
  constructor
  · rintro ⟨entry, hmem, heq⟩
    exact ⟨entry, hmem, (beq_iff_eq.1 heq).symm⟩
  · rintro ⟨entry, hmem, rfl⟩
    exact ⟨entry, hmem, beq_self_eq_true _⟩

theorem lt_size_of_isLocal (h : m.isLocal id x = true) : id < m.scopes.size := by
  refine Nat.lt_of_not_le fun hsize => ?_
  rw [isLocal, bindings_of_size_le hsize] at h
  cases h

/-- From `m` to `m'` the scopes of `m` keep their names, their registries and the scopes around
them, and get new names only where they may. -/
structure Grows (may : ScopeId → String → Prop) (m m' : Machine ω) : Prop where
  size : m.scopes.size ≤ m'.scopes.size
  names : ∀ id, id < m.scopes.size →
    ∃ added, m'.localNames id = added ++ m.localNames id ∧ ∀ x ∈ added, may id x
  registry : ∀ id, id < m.scopes.size → m'.registry? id = m.registry? id
  outer : ∀ id, id < m.scopes.size → m'.outer id = m.outer id

/-- Whatever does not touch the scopes lets no scope grow. -/
theorem grows_of_scopes_eq (h : m'.scopes = m.scopes) : Grows may m m' where
  size := by simp only [h, Nat.le_refl]
  names id _ := ⟨[], by simp only [localNames, bindings, h, List.nil_append], by simp⟩
  registry id _ := by simp only [h, registry?]
  outer id _ := by simp only [Machine.outer, h]

theorem Grows.trans (h : Grows may m₀ m) (h' : Grows may' m m')
    (hmay : ∀ id x, id < m₀.scopes.size → may' id x → may id x) : Grows may m₀ m' where
  size := Nat.le_trans h.size h'.size
  names id hid := by
    obtain ⟨added, hnames, hadded⟩ := h.names id hid
    obtain ⟨added', hnames', hadded'⟩ := h'.names id (Nat.lt_of_lt_of_le hid h.size)
    refine ⟨added' ++ added, by rw [hnames', hnames, List.append_assoc], fun x hx => ?_⟩
    rcases List.mem_append.1 hx with hx | hx
    · exact hmay id x hid (hadded' x hx)
    · exact hadded x hx
  registry id hid := (h'.registry id (Nat.lt_of_lt_of_le hid h.size)).trans (h.registry id hid)
  outer id hid := (h'.outer id (Nat.lt_of_lt_of_le hid h.size)).trans (h.outer id hid)

/-! ### One operation -/

/-- An update that puts a list of names in front of those that a scope has. -/
theorem grows_updateBindings {f : Bindings → Bindings} (added : List String)
    (hf : ∀ b : Bindings, (f b).map (·.1) = added ++ b.map (·.1))
    (hadded : ∀ x ∈ added, may env x) : Grows may m (m.updateBindings env f) where
  size := by simp only [size_updateBindings, Nat.le_refl]
  names id hid := by
    unfold localNames
    rw [bindings_updateBindings]
    by_cases henv : env = id
    · rw [if_pos ⟨henv, hid⟩]
      exact ⟨added, hf _, henv ▸ hadded⟩
    · rw [if_neg fun h => henv h.1]
      exact ⟨[], rfl, by simp⟩
  registry id _ := registry?_updateBindings f
  outer id _ := outer_updateBindings f

theorem grows_define (h : m.define env name v = .ok m') (hmay : may env name) :
    Grows may m m' := by
  obtain ⟨-, rfl⟩ := define_eq_ok h
  exact grows_updateBindings [name] (fun b => rfl) (by simpa using hmay)

theorem grows_assign (h : m.assign env name v = .ok m') : Grows may m m' := by
  obtain ⟨id, -, rfl⟩ := assign_eq_ok h
  exact grows_updateBindings [] (fun b => Bindings.map_replace b name v) (by simp)

theorem grows_openScope (scope : Scope ω) : Grows may m (m.openScope scope).2 where
  size := by
    rw [size_openScope]
    omega
  names id hid := by
    refine ⟨[], ?_, by simp⟩
    unfold localNames
    rw [bindings_openScope, if_neg (Nat.ne_of_lt hid), List.nil_append]
  registry id hid := by rw [registry?_openScope, if_neg (Nat.ne_of_lt hid)]
  outer id hid := by rw [outer_openScope, if_neg (Nat.ne_of_lt hid)]

end Machine

/-! ## Evaluation lets only its own scope grow -/

variable {ω : Type}

/-- Since `m₀` no scope has grown but `env`, and that only by names in `may`. -/
def Discipline.growth (m₀ : Machine ω) (env : ScopeId) (may : String → Prop) : Discipline ω where
  machine m := m₀.Grows (fun id x => id = env ∧ may x) m
  scope id := id = env
  node n := ∀ x ∈ n.defined, may x
  value _ := True
  host _ := True
  error _ := True

theorem Discipline.growth_of_scopes_eq {m₀ m m' : Machine ω} {env : ScopeId} {may : String → Prop}
    (hm : (growth m₀ env may).machine m) (h : m'.scopes = m.scopes) :
    (growth m₀ env may).machine m' :=
  hm.trans (Machine.grows_of_scopes_eq h) fun _ _ _ hnew => hnew

theorem Discipline.growth_kept (m₀ : Machine ω) (env : ScopeId) (may : String → Prop) :
    (growth m₀ env may).Kept where
  operand hn part hpart x hx := hn x (Node.mem_defined_of_operand hpart hx)
  bindError _ := trivial
  nestedList _ := trivial
  constant _ := trivial
  lookup _ _ _ := trivial
  define {_ _ env' name _ _} hn hm hs _ h := by
    have hname : may name := hn name (by simp [Node.defined])
    exact hm.trans (Machine.grows_define h ⟨hs, hname⟩) fun _ _ _ h => h
  assign _ hm _ _ h := hm.trans (Machine.grows_assign h) fun _ _ _ h => h
  lambda _ hm _ := ⟨trivial, growth_of_scopes_eq hm rfl⟩
  count hm := growth_of_scopes_eq hm rfl
  hostFunction _ _ _ := trivial
  callHost _ _ _ m hm :=
    (Eval.ends_callHost _ _ _ m).imp (fun _ _ h => ⟨trivial, growth_of_scopes_eq hm (h ▸ rfl)⟩)
      fun _ _ h => ⟨trivial, growth_of_scopes_eq hm (h ▸ rfl)⟩

/-- Growth since the body of a closure was started is no growth since before. -/
theorem Machine.Grows.of_body {m₀ m m' : Machine ω} {may : ScopeId → String → Prop} {c : Closure}
    {bindings : Bindings} (hm : m₀.Grows may m)
    (h : (m.entered c bindings).Grows (fun id _ => id = m.scopes.size ∧ True) m') :
    m₀.Grows may m'.exited := by
  have hopen : m.Grows may (m.entered c bindings) :=
    (Machine.grows_openScope _).trans (Machine.grows_of_scopes_eq rfl) fun _ _ _ hnew => hnew
  have hentered := hm.trans hopen fun _ _ _ hnew => hnew
  have hbody := hentered.trans h fun id x hid hnew => by
    -- The scope of the call has the first number that `m` does not have.
    have hsize := hm.size
    have hnumber : id = m.scopes.size := hnew.1
    omega
  exact hbody.trans (Machine.grows_of_scopes_eq rfl) fun _ _ _ hnew => hnew

/-- Entering a closure lets no scope grow that was there before. -/
theorem Eval.enter_growth (left : Nat) (m₀ : Machine ω) (env : ScopeId) (may : String → Prop) :
    (Discipline.growth m₀ env may).Enters (Eval.enter left) := by
  induction left generalizing m₀ env may with
  | zero => exact fun name c bindings _ _ => (Discipline.growth_kept m₀ env may).refuse _
  | succ left ih =>
    intro name c bindings _ _ m hm
    rw [Eval.ends_enter]
    -- The body is evaluated in the new scope, and may define anything there.
    have hkept := Discipline.growth_kept (m.entered c bindings) m.scopes.size fun _ => True
    have hbody := hkept.evalNode (ih _ _ _) c.body.node m.scopes.size (fun _ _ => trivial) rfl
      (m.entered c bindings) (Machine.grows_of_scopes_eq rfl)
    exact hbody.imp (fun v m' hv => ⟨trivial, hm.of_body hv.2⟩)
      fun e m' he => ⟨trivial, hm.of_body he.2⟩

/-- How the scopes can have grown after an evaluation, whatever it comes to. -/
theorem eval_grows (node : Node) (env : ScopeId) (m : Machine ω) :
    m.Grows (fun id x => id = env ∧ x ∈ node.defined) ((eval node env).after m) := by
  have hkept := Discipline.growth_kept m env (· ∈ node.defined)
  have hnode := hkept.evalNode (Eval.enter_growth (maxCallDepth - m.depth) m env _) node env
    (fun x hx => hx) rfl
  exact hnode.after (Machine.grows_of_scopes_eq rfl)

/-- Definitions never leak.  However an evaluation ends, no scope has lost a name; of the scopes
that were there before, only the one that it took place in can have new names, and only such as the
node defines outside the bodies of `lambda`s; and those scopes have the registries and the scopes
around them that they had. -/
theorem definitions_stay_in_scope (node : Node) (env : ScopeId) (m : Machine ω) :
    (∀ id x, m.isLocal id x = true → ((eval node env).after m).isLocal id x = true) ∧
    (∀ id x, id < m.scopes.size → ((eval node env).after m).isLocal id x = true →
      m.isLocal id x = true ∨ id = env ∧ x ∈ node.defined) ∧
    (∀ id, id < m.scopes.size → ((eval node env).after m).outer id = m.outer id ∧
      Machine.registry? ((eval node env).after m) id = m.registry? id) := by
  have hgrows := eval_grows node env m
  refine ⟨fun id x hx => ?_, fun id x hid hx => ?_, fun id hid => ?_⟩
  · obtain ⟨added, hnames, -⟩ := hgrows.names id (Machine.lt_size_of_isLocal hx)
    rw [Machine.isLocal_iff_mem] at hx ⊢
    rw [hnames]
    exact List.mem_append_right added hx
  · obtain ⟨added, hnames, hadded⟩ := hgrows.names id hid
    rw [Machine.isLocal_iff_mem] at hx ⊢
    rw [hnames] at hx
    rcases List.mem_append.1 hx with hx | hx
    · exact .inr (hadded x hx)
    · exact .inl hx
  · exact ⟨hgrows.outer id hid, hgrows.registry id hid⟩

/-- A machine whose global scope binds `keep` to a function that defines `inner` where it runs and
sets `last`, a name of the scope it was made in. -/
def Machine.keeping : Machine Unit where
  globals := 0
  scopes := #[⟨[("keep", .closure ⟨0, ["x"],
      ⟨"=", [.define "inner" (.var "x"), .assign "last" (.var "inner")]⟩, 0⟩),
    ("last", .unit)], some Library.registry, []⟩]
  calls := 0
  depth := 0
  closures := 1
  world := ()

/-- The program `(begin (define outer (keep 7)) (keep missing))`, which fails on the way. -/
def Node.leaky : Node :=
  .begin [.define "outer" (.call "keep" [.number ⟨"7", 7⟩]), .call "keep" [.var "missing"]]

/-- The function runs to its end once, so `last` is set and `outer` defined; `inner` is defined
then, but nowhere that could be seen from outside. -/
theorem keeping_does_not_leak :
    (eval Node.leaky 0 Machine.keeping matches .error (.bind (.undefinedVariable "missing")) _) ∧
    ((eval Node.leaky 0).after Machine.keeping).lookup 0 "last" matches some (.int 7) ∧
    ((eval Node.leaky 0).after Machine.keeping).isLocal 0 "outer" = true ∧
    0 < Machine.keeping.scopes.size ∧
    ((eval Node.leaky 0).after Machine.keeping).isLocal 0 "inner" = false := by
  refine ⟨rfl, rfl, rfl, by decide, ?_⟩
  refine Bool.eq_false_iff.2 fun hinner => ?_
  rcases (definitions_stay_in_scope Node.leaky 0 Machine.keeping).2.1 0 "inner" (by decide) hinner
    with hlocal | ⟨-, hdefined⟩
  · exact absurd hlocal (by decide)
  · exact absurd hdefined (by decide)

end HostLisp
