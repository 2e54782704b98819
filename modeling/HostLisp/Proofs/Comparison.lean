import HostLisp.Proofs.Evaluation
import HostLisp.Proofs.Machine

/-!
# Two evaluations side by side

Some statements about evaluation are about two runs of it: on machines that differ in something, or
with different ways to enter closures.  They say that the difference does not show: the runs come to
the same value or the same error, and leave machines behind that differ no more than before.  This
file proves the induction behind such statements once, as `Discipline` does for single runs.

A `Comparison` relates machines, and says in which scopes the runs take place and which values they
come upon.  The two runs always have the same node and the same scope, and compute the same values,
so nothing has to be related but the machines.  An error of the first run can be *excused*; then
nothing is asked of the second.

What the two machines must have in common is little (`Machine.LooksAlike`): along the chain of the
scope, the same bindings and the same registries.  Then each single step goes the same way in both
(`Comparison.Kept`), and so does all of evaluation inside one body (`Comparison.Kept.evalNode`).
-/

namespace HostLisp

variable {ω : Type} {α β : Type}

/-- What a computation comes to, without the machine. -/
def Eval.answer (x : Eval ω α) (m : Machine ω) : Except Error α :=
  match x m with
  | .ok a _ => .ok a
  | .error e _ => .error e

/-! ## What can be seen from a scope -/

theorem findSome?_congr {f g : α → Option β} {l : List α} (h : ∀ a ∈ l, f a = g a) :
    l.findSome? f = l.findSome? g := by
  induction l with
  | nil => rfl
  | cons a l ih =>
    rw [List.findSome?_cons, List.findSome?_cons, h a (by simp), ih fun b hb => h b (by simp [hb])]

namespace Machine

/-- From the scope `env` the two machines look alike. -/
structure LooksAlike (m₁ m₂ : Machine ω) (env : ScopeId) : Prop where
  outer : m₁.outer env = m₂.outer env
  bindings : ∀ id ∈ m₁.chain env, m₁.bindings id = m₂.bindings id
  registry : ∀ id ∈ m₁.chain env, m₁.registry? id = m₂.registry? id

variable {m₁ m₂ : Machine ω} {env : ScopeId}

theorem LooksAlike.chain_eq (h : m₁.LooksAlike m₂ env) : m₁.chain env = m₂.chain env := by
  rw [chain, chain, h.outer]

theorem LooksAlike.isLocal_eq (h : m₁.LooksAlike m₂ env) (name : String) :
    m₁.isLocal env name = m₂.isLocal env name := by
  rw [isLocal, isLocal, h.bindings env (by simp [chain])]

theorem LooksAlike.lookup_eq (h : m₁.LooksAlike m₂ env) (name : String) :
    m₁.lookup env name = m₂.lookup env name := by
  rw [lookup, lookup, ← h.chain_eq]
  exact findSome?_congr fun id hid => by rw [h.bindings id hid]

theorem LooksAlike.holder?_eq (h : m₁.LooksAlike m₂ env) (name : String) :
    m₁.holder? env name = m₂.holder? env name := by
  rw [holder?, holder?, ← h.chain_eq, ← List.head?_filter, ← List.head?_filter]
  have hlocal : ∀ id ∈ m₁.chain env, m₁.isLocal id name = m₂.isLocal id name :=
    fun id hid => by rw [isLocal, isLocal, h.bindings id hid]
  rw [List.filter_congr hlocal]

theorem LooksAlike.hostFunction?_eq (h : m₁.LooksAlike m₂ env) (name : String) :
    m₁.hostFunction? env name = m₂.hostFunction? env name := by
  rw [hostFunction?, hostFunction?, ← h.chain_eq]
  exact findSome?_congr fun id hid => by rw [h.registry id hid]

end Machine

/-! ## Comparisons -/

/-- What two runs have to do with each other. -/
structure Comparison (ω : Type) where
  machine : Machine ω → Machine ω → Prop
  /-- The scopes that nodes are evaluated in. -/
  scope : ScopeId → Prop
  value : Value → Prop
  host : HostFunction ω → Prop
  /-- The errors of the first run after which the second may do anything. -/
  excused : Error → Prop

namespace Comparison

variable {C : Comparison ω}

/-- Two ends that tally: the same value, with `Q`, or the same error. -/
inductive Same (C : Comparison ω) (Q : α → Prop) :
    EStateM.Result Error (Machine ω) α → EStateM.Result Error (Machine ω) α → Prop where
  | ok {a : α} {m₁ m₂ : Machine ω} : Q a → C.machine m₁ m₂ → C.Same Q (.ok a m₁) (.ok a m₂)
  | error {e : Error} {m₁ m₂ : Machine ω} :
    C.machine m₁ m₂ → C.Same Q (.error e m₁) (.error e m₂)
  | excused {e : Error} {m₁ : Machine ω} {r : EStateM.Result Error (Machine ω) α} :
    C.excused e → C.Same Q (.error e m₁) r

/-- From machines that are compared, the two computations end the same way. -/
def Tallies (C : Comparison ω) (x y : Eval ω α) (Q : α → Prop) : Prop :=
  ∀ m₁ m₂, C.machine m₁ m₂ → C.Same Q (x m₁) (y m₂)

/-- An argument of a host function, as a discipline has it. -/
def Argument (C : Comparison ω) (v : Value) : Prop := C.value v ∨ ∃ u, v = .uint u

/-- The bindings that closures are entered with. -/
def Bound (C : Comparison ω) (bindings : Bindings) : Prop := ∀ b ∈ bindings, C.value b.2

/-- Two ways to enter closures that tally. -/
def Enters (C : Comparison ω) (e₁ e₂ : Enter ω) : Prop :=
  ∀ name c bindings, C.value (.closure c) → C.Bound bindings →
    C.Tallies (e₁ name c bindings) (e₂ name c bindings) C.value

/-- The single steps of evaluation tally. -/
structure Kept (C : Comparison ω) : Prop where
  view : ∀ {m₁ m₂ env}, C.machine m₁ m₂ → C.scope env → m₁.LooksAlike m₂ env
  constant : ∀ {v : Value}, v.kind ∈ [Kind.unit, .bool, .int, .str] → C.value v
  lookup : ∀ {m₁ m₂ env name v}, C.machine m₁ m₂ → C.scope env → m₁.lookup env name = some v →
    C.value v
  define : ∀ {m₁ m₂ env name v}, C.machine m₁ m₂ → C.scope env → C.value v →
    C.machine (m₁.updateBindings env ((name, v) :: ·)) (m₂.updateBindings env ((name, v) :: ·))
  assign : ∀ {m₁ m₂ env name v id}, C.machine m₁ m₂ → C.scope env → C.value v →
    id ∈ m₁.chain env →
    C.machine (m₁.updateBindings id (·.replace name v)) (m₂.updateBindings id (·.replace name v))
  lambda : ∀ {m₁ m₂ env params body}, C.machine m₁ m₂ → C.scope env →
    C.Same C.value (Eval.makeClosure params body env m₁) (Eval.makeClosure params body env m₂)
  count : ∀ {m₁ m₂}, C.machine m₁ m₂ → C.machine m₁.counted m₂.counted
  hostFunction : ∀ {m₁ m₂ env name f}, C.machine m₁ m₂ → C.scope env →
    m₁.hostFunction? env name = some f → C.host f
  callHost : ∀ {f args shape values}, C.host f → Eval.Prepared f args shape values →
    (∀ v ∈ values, C.Argument v) →
    C.Tallies (Eval.callHost f shape values) (Eval.callHost f shape values) C.value

/-! ### Sequences -/

theorem tallies_pure {Q : α → Prop} {a : α} (ha : Q a) : C.Tallies (pure a) (pure a) Q :=
  fun _ _ hm => .ok ha hm

theorem tallies_refuse {Q : α → Prop} (e : BindError) :
    C.Tallies (Eval.refuse e : Eval ω α) (Eval.refuse e) Q :=
  fun _ _ hm => .error hm

theorem tallies_check {Q : α → Prop} {x : Except BindError α} (hx : ∀ a, x = .ok a → Q a) :
    C.Tallies (Eval.check x) (Eval.check x) Q := by
  cases x with
  | ok a => exact tallies_pure (hx a rfl)
  | error e => exact tallies_refuse e

/-- Two computations that end the same way can be gone on from, and the first may take its own
result into account. -/
theorem Same.bind {x y : Eval ω β} {k l : β → Eval ω α} {P : β → Prop} {Q : α → Prop}
    {m₁ m₂ : Machine ω} (hxy : C.Same P (x m₁) (y m₂))
    (hkl : ∀ b m₁' m₂', x m₁ = .ok b m₁' → P b → C.machine m₁' m₂' →
      C.Same Q (k b m₁') (l b m₂')) :
    C.Same Q ((x >>= k) m₁) ((y >>= l) m₂) := by
  simp only [Bind.bind, EStateM.bind]
  generalize hr₁ : x m₁ = r₁, y m₂ = r₂ at hxy
  cases hxy with
  | ok hb hm => exact hkl _ _ _ hr₁ hb hm
  | error hm => exact .error hm
  | excused he => exact .excused he

theorem Tallies.bind {x y : Eval ω β} {k l : β → Eval ω α} {P : β → Prop} {Q : α → Prop}
    (hxy : C.Tallies x y P) (hkl : ∀ b, P b → C.Tallies (k b) (l b) Q) :
    C.Tallies (x >>= k) (y >>= l) Q :=
  fun m₁ m₂ hm => (hxy m₁ m₂ hm).bind fun b m₁' m₂' _ hb hm' => hkl b hb m₁' m₂' hm'

/-- Unless the first computation is excused, two that end the same way have the same answer. -/
theorem Same.answer_eq {x y : Eval ω α} {Q : α → Prop} {m₁ m₂ : Machine ω}
    (h : C.Same Q (x m₁) (y m₂)) (hexcused : ∀ e, x.answer m₁ = .error e → ¬ C.excused e) :
    x.answer m₁ = y.answer m₂ ∧ C.machine (x.after m₁) (y.after m₂) := by
  unfold Eval.answer at hexcused ⊢
  unfold Eval.after
  generalize x m₁ = r₁, y m₂ = r₂ at h hexcused
  cases h with
  | ok _ hm => exact ⟨rfl, hm⟩
  | error hm => exact ⟨rfl, hm⟩
  | excused he => exact absurd he (hexcused _ rfl)

/-- Without excuses, two computations that tally have the same answer. -/
theorem Tallies.answer_eq {x y : Eval ω α} {Q : α → Prop} (h : C.Tallies x y Q)
    (hexcused : ∀ e, ¬ C.excused e) {m₁ m₂ : Machine ω} (hm : C.machine m₁ m₂) :
    x.answer m₁ = y.answer m₂ ∧ C.machine (x.after m₁) (y.after m₂) :=
  (h m₁ m₂ hm).answer_eq fun e _ => hexcused e

/-! ### Single steps -/

section Steps

variable {env : ScopeId} {name : String}

theorem Kept.readVar (h : C.Kept) (hs : C.scope env) :
    C.Tallies (Eval.readVar env name) (Eval.readVar env name) C.value := by
  intro m₁ m₂ hm
  rw [Eval.readVar, Eval.get_bind, Eval.get_bind, ← (h.view hm hs).lookup_eq]
  cases hv : m₁.lookup env name with
  | some v => exact .ok (h.lookup hm hs hv) hm
  | none => exact .error hm

theorem Kept.defineStep (h : C.Kept) (hs : C.scope env) {v : Value} (hv : C.value v) :
    C.Tallies (Eval.define env name v) (Eval.define env name v) C.value := by
  intro m₁ m₂ hm
  unfold Eval.define Machine.define
  rw [← (h.view hm hs).isLocal_eq]
  cases m₁.isLocal env name with
  | true => exact .error hm
  | false => exact .ok (h.constant (by decide)) (h.define hm hs hv)

theorem Kept.assignStep (h : C.Kept) (hs : C.scope env) {v : Value} (hv : C.value v) :
    C.Tallies (Eval.assign env name v) (Eval.assign env name v) C.value := by
  intro m₁ m₂ hm
  unfold Eval.assign Machine.assign
  rw [← (h.view hm hs).holder?_eq]
  cases hid : m₁.holder? env name with
  | some id =>
    exact .ok (h.constant (by decide)) (h.assign hm hs hv (List.mem_of_find?_eq_some hid))
  | none => exact .error hm

theorem hostArg_tallies {function : String} {slot : Kind} {arg : Node} {x y : Eval ω Value}
    (hxy : C.Tallies x y C.value) :
    C.Tallies (Eval.hostArg function slot arg x) (Eval.hostArg function slot arg y) C.Argument := by
  unfold Eval.hostArg
  split
  case h_1 literal =>
    refine tallies_check fun v hv => Or.inr ?_
    obtain ⟨u, hu, -⟩ := (bindUnsigned_takes hv).literal literal rfl rfl
    exact ⟨u, hu⟩
  case h_2 =>
    refine hxy.bind fun v hv => tallies_check fun v' hv' => Or.inl ?_
    exact (bindArgument_eq_ok hv').1 ▸ hv

theorem prepareHost_tallies {e₁ e₂ : Enter ω} {f : HostFunction ω} {args : List Node}
    {env : ScopeId} (hargs : C.Tallies (Eval.evalHostArgs e₁ f 0 args env)
      (Eval.evalHostArgs e₂ f 0 args env) fun vs => ∀ v ∈ vs, C.Argument v) :
    C.Tallies (Eval.prepareHost e₁ f args env) (Eval.prepareHost e₂ f args env)
      fun p => ∀ v ∈ p.2, C.Argument v := by
  unfold Eval.prepareHost
  refine (tallies_check fun _ _ => trivial).bind fun _ _ => ?_
  refine (tallies_check fun _ _ => trivial).bind fun shape _ => ?_
  exact hargs.bind fun vs hvs => tallies_pure hvs

end Steps

/-! ### Inside one body -/

mutual

/-- Evaluation tallies if its steps do and entering closures does. -/
theorem Kept.evalNode (h : C.Kept) {e₁ e₂ : Enter ω} (he : C.Enters e₁ e₂) :
    ∀ (node : Node) (env : ScopeId), C.scope env →
      C.Tallies (Eval.evalNode e₁ node env) (Eval.evalNode e₂ node env) C.value
  | .list children, env, hs => by
    rw [Eval.evalNode, Eval.evalNode]
    exact fun m₁ m₂ hm => .error hm
  | .number literal, env, hs => by
    rw [Eval.evalNode, Eval.evalNode]
    exact tallies_pure (h.constant (by simp [Value.kind]))
  | .str text, env, hs => by
    rw [Eval.evalNode, Eval.evalNode]
    exact tallies_pure (h.constant (by simp [Value.kind]))
  | .bool value, env, hs => by
    rw [Eval.evalNode, Eval.evalNode]
    exact tallies_pure (h.constant (by simp [Value.kind]))
  | .var name, env, hs => by
    rw [Eval.evalNode, Eval.evalNode]
    exact h.readVar hs
  | .define name value, env, hs => by
    have hvalue := h.evalNode he value env hs
    intro m₁ m₂ hm
    rw [Eval.evalNode, Eval.evalNode, Eval.get_bind, Eval.get_bind, ← (h.view hm hs).isLocal_eq]
    split
    · exact .error hm
    · exact hvalue.bind (fun v hv => h.defineStep hs hv) m₁ m₂ hm
  | .assign name value, env, hs => by
    have hvalue := h.evalNode he value env hs
    intro m₁ m₂ hm
    rw [Eval.evalNode, Eval.evalNode, Eval.get_bind, Eval.get_bind, ← (h.view hm hs).lookup_eq]
    split
    · exact .error hm
    · exact hvalue.bind (fun v hv => h.assignStep hs hv) m₁ m₂ hm
  | .cond test conseq alt, env, hs => by
    have hconseq := h.evalNode he conseq env hs
    have halt := h.evalNode he alt env hs
    rw [Eval.evalNode, Eval.evalNode]
    refine (h.evalNode he test env hs).bind fun v _ => ?_
    split
    · exact hconseq
    · exact halt
    · exact tallies_refuse _
  | .begin body, env, hs => by
    rw [Eval.evalNode, Eval.evalNode]
    exact h.evalBody he body env .unit (h.constant (by decide)) hs
  | .lambda params name args, env, hs => by
    rw [Eval.evalNode, Eval.evalNode]
    exact fun m₁ m₂ hm => h.lambda hm hs
  | .call name args, env, hs => by
    intro m₁ m₂ hm
    have hm' := h.count hm
    have hview := h.view hm hs
    cases hf : m₁.hostFunction? env name with
    | some f =>
      rw [Eval.evalNode_call_host hf, Eval.evalNode_call_host (hview.hostFunction?_eq name ▸ hf)]
      have hprepare := prepareHost_tallies (h.evalHostArgs he args f 0 env hs)
      refine (hprepare _ _ hm').bind fun p m₁' m₂' hp hargs hm'' => ?_
      exact h.callHost (h.hostFunction hm hs hf) (Eval.prepareHost_prepared hp) hargs _ _ hm''
    | none =>
      rw [Eval.evalNode_call_bound hf, Eval.evalNode_call_bound (hview.hostFunction?_eq name ▸ hf),
        ← hview.lookup_eq]
      cases hv : m₁.lookup env name with
      | none => exact .error hm'
      | some v =>
        cases v with
        | closure c =>
          dsimp only
          by_cases hlen : args.length = c.arity
          · rw [if_pos hlen, if_pos hlen]
            have hparams := h.evalParams he args c.params env [] (by simp [Bound]) hs
            have hbody := fun bindings hb => he name c bindings (h.lookup hm hs hv) hb
            exact hparams.bind hbody _ _ hm'
          · rw [if_neg hlen, if_neg hlen]
            exact .error hm'
        | _ => exact .error hm'

theorem Kept.evalBody (h : C.Kept) {e₁ e₂ : Enter ω} (he : C.Enters e₁ e₂) :
    ∀ (nodes : List Node) (env : ScopeId) (last : Value), C.value last → C.scope env →
      C.Tallies (Eval.evalBody e₁ last nodes env) (Eval.evalBody e₂ last nodes env) C.value
  | [], env, last, hlast, hs => by
    rw [Eval.evalBody, Eval.evalBody]
    exact tallies_pure hlast
  | node :: rest, env, last, hlast, hs => by
    rw [Eval.evalBody, Eval.evalBody]
    exact (h.evalNode he node env hs).bind fun v hv => h.evalBody he rest env v hv hs

theorem Kept.evalHostArgs (h : C.Kept) {e₁ e₂ : Enter ω} (he : C.Enters e₁ e₂) :
    ∀ (args : List Node) (f : HostFunction ω) (index : Nat) (env : ScopeId), C.scope env →
      C.Tallies (Eval.evalHostArgs e₁ f index args env) (Eval.evalHostArgs e₂ f index args env)
        (fun vs => ∀ v ∈ vs, C.Argument v)
  | [], f, index, env, hs => by
    rw [Eval.evalHostArgs, Eval.evalHostArgs]
    exact tallies_pure (by simp)
  | arg :: rest, f, index, env, hs => by
    have hrest := h.evalHostArgs he rest f (index + 1) env hs
    rw [Eval.evalHostArgs, Eval.evalHostArgs]
    refine (hostArg_tallies (h.evalNode he arg env hs)).bind fun v hv => hrest.bind fun vs hvs => ?_
    exact tallies_pure (by simpa [hv] using hvs)

theorem Kept.evalParams (h : C.Kept) {e₁ e₂ : Enter ω} (he : C.Enters e₁ e₂) :
    ∀ (args : List Node) (params : List String) (env : ScopeId) (bound : Bindings),
      C.Bound bound → C.scope env →
      C.Tallies (Eval.evalParams e₁ bound params args env)
        (Eval.evalParams e₂ bound params args env) C.Bound
  | [], params, env, bound, hb, hs => by
    rw [Eval.evalParams, Eval.evalParams]
    · exact tallies_pure hb
    all_goals simp
  | arg :: rest, [], env, bound, hb, hs => by
    rw [Eval.evalParams, Eval.evalParams]
    · exact tallies_pure hb
    all_goals simp
  | arg :: rest, param :: params, env, bound, hb, hs => by
    rw [Eval.evalParams, Eval.evalParams]
    refine (h.evalNode he arg env hs).bind fun v hv => ?_
    split
    · exact tallies_refuse _
    · refine h.evalParams he rest params env _ ?_ hs
      intro b hmem
      rcases List.mem_cons.1 hmem with rfl | hmem
      · exact hv
      · exact hb b hmem

end

/-! ### From body to body -/

/-- Opening the scope of a closure call and giving it up again tallies. -/
structure Opens (C : Comparison ω) : Prop where
  enter : ∀ {m₁ m₂ c bindings}, C.value (.closure c) → C.Bound bindings → C.machine m₁ m₂ →
    m₁.scopes.size = m₂.scopes.size ∧ C.scope m₁.scopes.size ∧
      C.machine (m₁.entered c bindings) (m₂.entered c bindings)
  exit : ∀ {m₁ m₂}, C.machine m₁ m₂ → C.machine m₁.exited m₂.exited

/-- One more call may be opened on both sides, whatever the two budgets are. -/
theorem Kept.enter_succ (h : C.Kept) (ho : C.Opens) {left₁ left₂ : Nat}
    (henters : C.Enters (Eval.enter left₁) (Eval.enter left₂)) :
    C.Enters (Eval.enter (left₁ + 1)) (Eval.enter (left₂ + 1)) := by
  intro name c bindings hc hb m₁ m₂ hm
  obtain ⟨hsize, hscope, hentered⟩ := ho.enter hc hb hm
  have hbody := h.evalNode henters c.body.node _ hscope _ _ hentered
  rw [Eval.enter_succ, Eval.enter_succ, ← hsize]
  generalize Eval.evalNode (Eval.enter left₁) c.body.node m₁.scopes.size
    (m₁.entered c bindings) = r₁ at hbody ⊢
  generalize Eval.evalNode (Eval.enter left₂) c.body.node m₁.scopes.size
    (m₂.entered c bindings) = r₂ at hbody ⊢
  cases hbody with
  | ok hv hm' => exact .ok hv (ho.exit hm')
  | error hm' => exact .error (ho.exit hm')
  | excused he => exact .excused he

/-- With the same budget on both sides entering closures tallies. -/
theorem Kept.enter (h : C.Kept) (ho : C.Opens) (left : Nat) :
    C.Enters (Eval.enter left) (Eval.enter left) := by
  induction left with
  | zero => exact fun name c bindings _ _ => tallies_refuse _
  | succ left ih => exact h.enter_succ ho ih

/-- So does it with a larger budget in the second run, if the first is excused where it meets the
limit. -/
theorem Kept.enter_le (h : C.Kept) (ho : C.Opens)
    (hlimit : ∀ name, C.excused (.bind (.recursionLimit name maxCallDepth))) {left₁ left₂ : Nat}
    (hle : left₁ ≤ left₂) : C.Enters (Eval.enter left₁) (Eval.enter left₂) := by
  induction left₁ generalizing left₂ with
  | zero => exact fun name c bindings _ _ m₁ m₂ _ => .excused (hlimit name)
  | succ left₁ ih =>
    obtain ⟨left, rfl⟩ := Nat.exists_eq_add_of_le' hle
    exact h.enter_succ ho (ih (Nat.le_add_left left₁ left))

/-- With as many calls in progress on both sides, evaluation as a whole tallies. -/
theorem Kept.eval (h : C.Kept) (ho : C.Opens) (hdepth : ∀ {m₁ m₂}, C.machine m₁ m₂ →
    m₁.depth = m₂.depth) (node : Node) {env : ScopeId} (hs : C.scope env) :
    C.Tallies (eval node env) (eval node env) C.value := by
  intro m₁ m₂ hm
  have hnode := h.evalNode (h.enter ho (maxCallDepth - m₁.depth)) node env hs m₁ m₂ hm
  change C.Same C.value (Eval.evalNode (Eval.enter (maxCallDepth - m₁.depth)) node env m₁)
    (Eval.evalNode (Eval.enter (maxCallDepth - m₂.depth)) node env m₂)
  rwa [← hdepth hm]

end Comparison

end HostLisp
