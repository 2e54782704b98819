import HostLisp.Proofs.Course

/-!
# The tree of scopes

Scopes refer to closures and closures to scopes, in circles as a rule.  But where a scope was opened
is settled once and for all, and that makes them a tree (`Machine.Rooted`): each was opened inside
one that was there before, the first one is the global scope, and it is the only one that offers
host functions.

For the tree to grow as it should, the scopes that closures were made in have to be there when they
are called.  Closures are stored, passed on and returned in many ways, so this is asked of all of
them, wherever they are (`Machine.Tended`).  Along with it goes anything else that a task hands down
to its operands, to the closures that it makes and through them to their bodies (`Provenance`).

The main result is `Task.Ready.course`: a task that begins with such a machine leaves one, and so
does all that it starts.  The proof is by induction on the tasks, with one lemma for each loop over
operands.
-/

namespace HostLisp

variable {ω : Type}

/-! ## Scopes in a tree -/

namespace Machine

variable {registry : Registry ω} {m m' : Machine ω} {id env : ScopeId} {name : String}

/-- The scopes are a tree: the first one is the global scope and the only one that offers host
functions, and every other was opened inside one that was there before. -/
structure Rooted (registry : Registry ω) (m : Machine ω) : Prop where
  globals : m.globals = 0
  root : 0 < m.scopes.size ∧ m.outer 0 = []
  parent : ∀ id, 0 < id → id < m.scopes.size → ∃ p < id, m.outer id = m.chain p
  registry : ∀ id, id < m.scopes.size → m.registry? id = if id = 0 then some registry else none

theorem rooted_new (registry : Registry ω) (world : ω) : (new registry world).Rooted registry where
  globals := rfl
  root := ⟨Nat.one_pos, rfl⟩
  parent id hpos hid := absurd hid (Nat.not_lt.2 hpos)
  registry id hid := by
    obtain rfl : id = 0 := Nat.lt_one_iff.1 hid
    rfl

theorem Rooted.chain_zero (h : m.Rooted registry) : m.chain 0 = [0] := by
  rw [chain, h.root.2]

theorem Rooted.globals_lt_size (h : m.Rooted registry) : m.globals < m.scopes.size :=
  h.globals ▸ h.root.1

/-- Whatever leaves the scopes and the choice of the global one alone. -/
theorem Rooted.of_scopes_eq (h : m.Rooted registry) (hscopes : m'.scopes = m.scopes)
    (hglobals : m'.globals = m.globals) : m'.Rooted registry where
  globals := hglobals.trans h.globals
  root := by simpa only [hscopes, outer] using h.root
  parent := by simpa only [hscopes, outer, chain] using h.parent
  registry := by simpa only [hscopes, registry?] using h.registry

theorem Rooted.updateBindings (h : m.Rooted registry) (f : Bindings → Bindings) :
    (m.updateBindings env f).Rooted registry where
  globals := h.globals
  root := by simpa only [size_updateBindings, outer_updateBindings] using h.root
  parent := by simpa only [size_updateBindings, outer_updateBindings, chain] using h.parent
  registry := by simpa only [size_updateBindings, registry?_updateBindings] using h.registry

theorem Rooted.openChild (h : m.Rooted registry) (henv : env < m.scopes.size)
    (bindings : Bindings) : (m.openChild env bindings).2.Rooted registry where
  globals := h.globals
  root := by
    have hne : 0 ≠ m.scopes.size := Nat.ne_of_lt h.root.1
    rw [Machine.openChild, size_openScope, outer_openScope, if_neg hne]
    exact ⟨Nat.succ_pos _, h.root.2⟩
  parent id hpos hid := by
    rw [Machine.openChild, size_openScope] at hid
    simp only [Machine.openChild, chain, outer_openScope]
    by_cases hnew : id = m.scopes.size
    · refine ⟨env, hnew ▸ henv, ?_⟩
      rw [if_pos hnew, if_neg (Nat.ne_of_lt henv)]
    · obtain ⟨p, hp, houter⟩ := h.parent id hpos (by omega)
      refine ⟨p, hp, ?_⟩
      have hpsize : p < m.scopes.size := by omega
      rw [if_neg hnew, if_neg (Nat.ne_of_lt hpsize)]
      exact houter
  registry id hid := by
    rw [Machine.openChild, size_openScope] at hid
    rw [Machine.openChild, registry?_openScope]
    by_cases hnew : id = m.scopes.size
    · have := h.root.1
      rw [if_pos hnew, if_neg (by omega)]
    · rw [if_neg hnew]
      exact h.registry id (by omega)

theorem Rooted.registry_eq (h : m.Rooted registry) {r : Registry ω} (hr : m.registry? id = some r) :
    id = 0 ∧ r = registry := by
  have hid : id < m.scopes.size := by
    refine Nat.lt_of_not_le fun hsize => ?_
    simp [Array.getElem?_eq_none hsize, registry?] at hr
  rw [h.registry id hid] at hr
  split at hr
  case isTrue hzero => exact ⟨hzero, (Option.some.inj hr).symm⟩
  case isFalse => cases hr

end Machine

/-! ## Where closures come from -/

namespace Task

/-- The task is a call of the closure. -/
inductive Calls : Task ω → Closure → Prop where
  | call {name args env c} {m : Machine ω} :
    m.hostFunction? env name = none → m.lookup env name = some (.closure c) →
      Calls ⟨.call name args, env, m⟩ c

/-- The task is for a `lambda`, and makes the closure. -/
inductive Makes : Task ω → Closure → Prop where
  | lambda {params name args env} {m : Machine ω} :
    Makes ⟨.lambda params name args, env, m⟩ (m.makeClosure params ⟨name, args⟩ env).1

theorem Body.exists_calls {t u : Task ω} (h : t.Body u) : ∃ c, t.Calls c := by
  cases h with
  | enter hf hc _ _ _ => exact ⟨_, .call hf hc⟩

end Task

/-- Something that is known of tasks, and with it of the closures that they make and call. -/
structure Provenance (ω : Type) where
  task : Task ω → Prop
  closure : Closure → Prop
  operand : ∀ {t u}, task t → t.Operand u → task u
  body : ∀ {t u c}, task t → t.Calls c → closure c → t.Body u → task u
  made : ∀ {t c}, task t → t.Makes c → closure c

/-- Nothing is known. -/
def Provenance.any (ω : Type) : Provenance ω where
  task _ := True
  closure _ := True
  operand _ _ := trivial
  body _ _ _ _ := trivial
  made _ _ := trivial

namespace Machine

variable {registry : Registry ω} {π : Provenance ω} {m m' : Machine ω} {id env : ScopeId}
  {name : String} {v : Value}

/-- A closure was made in a scope of the machine, by a task that something is known of. -/
def Vouches (π : Provenance ω) (m : Machine ω) (v : Value) : Prop :=
  ∀ c, v = .closure c → c.captured < m.scopes.size ∧ π.closure c

theorem Vouches.later (h : m.Vouches π v) (hm : m.Before m') : m'.Vouches π v :=
  fun c hc => ⟨hm.lt_size (h c hc).1, (h c hc).2⟩

theorem vouches_of_ne (h : ∀ c, v ≠ .closure c) : m.Vouches π v :=
  fun c hc => absurd hc (h c)

/-- The scopes are a tree, each opened by a task that something is known of, and so are all the
closures that they bind. -/
structure Tended (registry : Registry ω) (π : Provenance ω) (m : Machine ω) : Prop where
  rooted : m.Rooted registry
  opened : ∀ id, 0 < id → id < m.scopes.size → ∃ u, π.task u ∧ u.env = id
  bound : ∀ id, ∀ entry ∈ m.bindings id, m.Vouches π entry.2

theorem tended_new (registry : Registry ω) (π : Provenance ω) (world : ω) :
    (new registry world).Tended registry π where
  rooted := rooted_new registry world
  opened id hpos hid := absurd hid (Nat.not_lt.2 hpos)
  bound id entry hentry := by
    rw [bindings_new] at hentry
    cases hentry

theorem Tended.of_scopes_eq (h : m.Tended registry π) (hscopes : m'.scopes = m.scopes)
    (hglobals : m'.globals = m.globals) : m'.Tended registry π where
  rooted := h.rooted.of_scopes_eq hscopes hglobals
  opened := by simpa only [hscopes] using h.opened
  bound := by simpa only [hscopes, bindings, Vouches] using h.bound

theorem Tended.updateBindings (h : m.Tended registry π) {f : Bindings → Bindings}
    (hf : ∀ b : Bindings, (∀ entry ∈ b, m.Vouches π entry.2) →
      ∀ entry ∈ f b, m.Vouches π entry.2) :
    (m.updateBindings env f).Tended registry π where
  rooted := h.rooted.updateBindings f
  opened := by simpa only [size_updateBindings] using h.opened
  bound id entry hentry := by
    have hvouches : m.Vouches π entry.2 := by
      rw [bindings_updateBindings] at hentry
      split at hentry
      · exact hf _ (h.bound id) entry hentry
      · exact h.bound id entry hentry
    simpa only [Vouches, size_updateBindings] using hvouches

theorem Tended.define (h : m.Tended registry π) (hv : m.Vouches π v)
    (hdefine : m.define env name v = .ok m') : m'.Tended registry π := by
  obtain ⟨-, rfl⟩ := define_eq_ok hdefine
  exact h.updateBindings fun b hb => List.forall_mem_cons.2 ⟨hv, hb⟩

theorem Tended.assign (h : m.Tended registry π) (hv : m.Vouches π v)
    (hassign : m.assign env name v = .ok m') : m'.Tended registry π := by
  obtain ⟨id, -, rfl⟩ := assign_eq_ok hassign
  refine h.updateBindings fun b hb entry hentry => ?_
  obtain ⟨old, hold, rfl⟩ := List.mem_map.1 hentry
  split
  · exact hv
  · exact hb old hold

theorem Tended.openChild (h : m.Tended registry π) (henv : env < m.scopes.size)
    {bindings : Bindings} (hb : ∀ entry ∈ bindings, m.Vouches π entry.2)
    (hopened : ∃ u, π.task u ∧ u.env = m.scopes.size) :
    (m.openChild env bindings).2.Tended registry π where
  rooted := h.rooted.openChild henv bindings
  opened id hpos hid := by
    by_cases hnew : id = m.scopes.size
    · exact hnew ▸ hopened
    · rw [Machine.openChild, size_openScope] at hid
      exact h.opened id hpos (by omega)
  bound id entry hentry := by
    refine Vouches.later ?_ (before_openChild m env bindings)
    rw [Machine.openChild, bindings_openScope] at hentry
    split at hentry
    · exact hb entry hentry
    · exact h.bound id entry hentry

theorem Tended.lookup (h : m.Tended registry π) (hv : m.lookup env name = some v) :
    m.Vouches π v := by
  obtain ⟨id, -, hmem⟩ := exists_of_lookup hv
  exact h.bound id _ hmem

theorem Tended.host (h : m.Tended registry π) (hregistry : registry.ReturnsArguments)
    {f : HostFunction ω} (hf : m.hostFunction? env name = some f) : f.ReturnsArguments := by
  obtain ⟨id, -, r, hr, hget⟩ := exists_of_hostFunction? hf
  obtain ⟨-, rfl⟩ := h.rooted.registry_eq hr
  exact hregistry name f hget

end Machine

/-! ## All through a task -/

namespace Eval

theorem ends_entry {node : Node} {env : ScopeId} {m m' : Machine ω} {Q : Value → Machine ω → Prop}
    {E : Error → Machine ω → Prop} (h : m'.depth = m.depth) :
    Ends (evalNode m.entry node env) m' Q E ↔ Ends (eval node env) m' Q E := by
  unfold Ends
  rw [Machine.evalNode_entry h]

end Eval

namespace Task

variable {registry : Registry ω} {π : Provenance ω} {t u : Task ω}

/-- A task that may be carried out. -/
structure Ready (registry : Registry ω) (π : Provenance ω) (t : Task ω) : Prop where
  machine : t.machine.Tended registry π
  env : t.env < t.machine.scopes.size
  known : π.task t

/-- What the task leaves is as it should be. -/
def Sound (registry : Registry ω) (π : Provenance ω) (t : Task ω) : Prop :=
  Eval.Ends (eval t.node t.env) t.machine
    (fun v m => m.Tended registry π ∧ m.Vouches π v) (fun _ m => m.Tended registry π)

theorem Sound.later (h : t.Sound registry π) :
    Eval.Ends (eval t.node t.env) t.machine
      (fun v m => t.machine.Before m ∧ m.Tended registry π ∧ m.Vouches π v)
      (fun _ m => m.Tended registry π) := by
  have hbefore := t.before_final
  unfold Sound Eval.Ends at h
  unfold final Eval.after at hbefore
  unfold Eval.Ends
  cases heval : eval t.node t.env t.machine with rw [heval] at h hbefore
  | ok v m => exact ⟨hbefore, h⟩
  | error e m => exact h

theorem Sound.final (h : t.Sound registry π) : t.final.Tended registry π := by
  unfold Sound Eval.Ends at h
  unfold Task.final Eval.after
  cases heval : eval t.node t.env t.machine with rw [heval] at h
  | ok v m => exact h.1
  | error e m => exact h

theorem Ready.of_operand (h : t.Ready registry π) (ho : t.Operand u)
    (hm : u.machine.Tended registry π) : u.Ready registry π where
  machine := hm
  env := ho.env_eq ▸ ho.before.lt_size h.env
  known := π.operand h.known ho

section Operands

variable {name : String} {env : ScopeId} {m : Machine ω} {nodes rest : List Node}

theorem ends_items (hm : m.Tended registry π)
    (ih : ∀ u, (⟨.begin (nodes ++ rest), env, m⟩ : Task ω).Operand u →
      u.machine.Tended registry π → u.Sound registry π) :
    Eval.Ends (Eval.evalBody m.entry .unit nodes env) m
      (fun v m' => m'.Tended registry π ∧ m'.Vouches π v) (fun _ m' => m'.Tended registry π) := by
  refine Eval.ends_evalBody ⟨hm, Machine.vouches_of_ne (by simp)⟩ ?_
  intro done node more last m' hsplit hdone hlast
  have ho : (⟨.begin (nodes ++ rest), env, m⟩ : Task ω).Operand ⟨node, env, m'⟩ := by
    rw [hsplit, List.append_assoc, List.cons_append]
    exact .item hdone
  exact (Eval.ends_entry ho.spec.2).2 (ih _ ho hlast.1)

theorem ends_hostArguments {f : HostFunction ω} {shape : ReturnShape} (hm : m.Tended registry π)
    (hf : m.hostFunction? env name = some f)
    (harity : f.signature.checkArity f.name (nodes ++ rest).length = .ok ())
    (hshape : f.signature.returnShape f.name = .ok shape)
    (ih : ∀ u, (⟨.call name (nodes ++ rest), env, m⟩ : Task ω).Operand u →
      u.machine.Tended registry π → u.Sound registry π) :
    Eval.Ends (Eval.evalHostArgs m.entry f 0 nodes env) m.counted
      (fun vs m' => m'.Tended registry π ∧ ∀ v ∈ vs, m'.Vouches π v)
      (fun _ m' => m'.Tended registry π) := by
  refine Eval.ends_evalHostArgs ⟨hm.of_scopes_eq rfl rfl, by simp⟩ ?_
  intro done arg more values m' hsplit hdone hvalues
  by_cases hliteral : ∃ literal,
      arg = .number literal ∧ f.signature.param? done.length = some .uint
  · obtain ⟨literal, rfl, hslot⟩ := hliteral
    rw [hslot]
    refine Eval.ends_check (fun v hv => ⟨hvalues.1, ?_⟩) fun _ => hvalues.1
    obtain ⟨n, rfl, -⟩ := (bindUnsigned_takes hv).literal literal rfl rfl
    exact List.forall_mem_append.2 ⟨hvalues.2, by simp [Machine.Vouches]⟩
  · have hplain : ∀ literal, arg = .number literal → f.signature.param? done.length ≠ some .uint :=
      fun literal harg hslot => hliteral ⟨literal, harg, hslot⟩
    have ho : (⟨.call name (nodes ++ rest), env, m⟩ : Task ω).Operand ⟨arg, env, m'⟩ := by
      rw [hsplit, List.append_assoc, List.cons_append] at harity ⊢
      exact .hostArgument hf harity hshape hdone hplain
    have harg := (Eval.ends_entry ho.spec.2).2 (ih _ ho hvalues.1).later
    rw [Eval.hostArg_eq_bind hplain]
    refine harg.bind fun v m'' _ hv =>
      Eval.ends_check (fun v' hv' => ⟨hv.2.1, ?_⟩) fun _ => hv.2.1
    obtain ⟨rfl, -⟩ := bindArgument_eq_ok hv'
    refine List.forall_mem_append.2 ⟨fun w hw => (hvalues.2 w hw).later hv.1, ?_⟩
    simpa using hv.2.2

theorem ends_arguments {c : Closure} (hm : m.Tended registry π)
    (hf : m.hostFunction? env name = none) (hc : m.lookup env name = some (.closure c))
    (hlen : (nodes ++ rest).length = c.arity)
    (ih : ∀ u, (⟨.call name (nodes ++ rest), env, m⟩ : Task ω).Operand u →
      u.machine.Tended registry π → u.Sound registry π) :
    Eval.Ends (Eval.evalParams m.entry [] (c.params.take nodes.length) nodes env) m.counted
      (fun b m' => m'.Tended registry π ∧ ∀ entry ∈ b, m'.Vouches π entry.2)
      (fun _ m' => m'.Tended registry π) := by
  have hcount : c.params.length = nodes.length + rest.length := by
    simpa [Closure.arity] using hlen.symm
  refine Eval.ends_evalParams (by rw [List.length_take]; omega) ⟨hm.of_scopes_eq rfl rfl, by simp⟩
    (fun _ _ _ h => h.1) ?_
  intro done arg more b m' hsplit hdone hb
  have ho : (⟨.call name (nodes ++ rest), env, m⟩ : Task ω).Operand ⟨arg, env, m'⟩ := by
    have hle : done.length ≤ nodes.length := by simp [hsplit]
    rw [List.take_take, Nat.min_eq_left hle] at hdone
    rw [hsplit, List.append_assoc, List.cons_append] at hlen ⊢
    exact .argument hf hc hlen hdone
  have harg := (Eval.ends_entry ho.spec.2).2 (ih _ ho hb.1).later
  refine harg.imp (fun v m'' hv => ?_) fun _ _ h => h
  have hold : ∀ entry ∈ b, m''.Vouches π entry.2 := fun entry he => (hb.2 entry he).later hv.1
  exact ⟨⟨hv.2.1, hold⟩, fun name => ⟨hv.2.1, List.forall_mem_cons.2 ⟨hv.2.2, hold⟩⟩⟩

end Operands

theorem Ready.operand (h : t.Ready registry π)
    (ih : ∀ u, t.Operand u → u.machine.Tended registry π → u.Sound registry π)
    (ho : t.Operand u) : u.Ready registry π := by
  refine h.of_operand ho ?_
  have hm := h.machine
  cases ho with
  | define | assign | test => exact hm
  | conseq htest | alt htest => exact (Eval.Ends.of_ok (ih _ .test hm) htest).1
  | item hdone => exact ((ends_items hm ih).of_ok hdone).1
  | hostArgument hf harity hshape hdone _ =>
    exact ((ends_hostArguments hm hf harity hshape ih).of_ok hdone).1
  | argument hf hc hlen hdone => exact ((ends_arguments hm hf hc hlen ih).of_ok hdone).1

theorem ends_allArguments {name : String} {args : List Node} {env : ScopeId} {m : Machine ω}
    {c : Closure} (hm : m.Tended registry π) (hf : m.hostFunction? env name = none)
    (hc : m.lookup env name = some (.closure c)) (hlen : args.length = c.arity)
    (ih : ∀ u, (⟨.call name args, env, m⟩ : Task ω).Operand u →
      u.machine.Tended registry π → u.Sound registry π) :
    Eval.Ends (Eval.evalParams m.entry [] c.params args env) m.counted
      (fun b m' => m'.Tended registry π ∧ ∀ entry ∈ b, m'.Vouches π entry.2)
      (fun _ m' => m'.Tended registry π) := by
  have hargs : args ++ [] = args := List.append_nil args
  have htake : c.params.take args.length = c.params :=
    List.take_of_length_le (Nat.le_of_eq hlen.symm)
  rw [← htake]
  exact ends_arguments hm hf hc (hargs.symm ▸ hlen) (hargs.symm ▸ ih)

theorem Ready.body (h : t.Ready registry π)
    (ih : ∀ u, t.Operand u → u.machine.Tended registry π → u.Sound registry π)
    (hb : t.Body u) : u.Ready registry π := by
  have hknown : π.task u := by
    obtain ⟨c, hcalls⟩ := hb.exists_calls
    cases hcalls with
    | call hf hc => exact π.body h.known (.call hf hc) (h.machine.lookup hc c rfl).2 hb
  cases hb with
  | @enter name args env c bindings m m' hf hc hlen hparams hlimit =>
    have hbindings := (ends_allArguments h.machine hf hc hlen ih).of_ok hparams
    have hcaptured : c.captured < m'.scopes.size :=
      (before_of_evalParams hparams).lt_size (h.machine.lookup hc c rfl).1
    have hopen := hbindings.1.openChild hcaptured hbindings.2 ⟨_, hknown, rfl⟩
    refine ⟨hopen.of_scopes_eq rfl rfl, ?_, hknown⟩
    change m'.scopes.size < (m'.openChild c.captured bindings).2.scopes.size
    rw [Machine.openChild, Machine.size_openScope]
    exact Nat.lt_succ_self _

/-- A host function answers with closures that it was given, or with none. -/
theorem ends_callHost {f : HostFunction ω} {args : List Node} {shape : ReturnShape}
    {values : List Value} {m : Machine ω} (hf : f.ReturnsArguments)
    (hp : Eval.Prepared f args shape values) (hm : m.Tended registry π)
    (hvalues : ∀ v ∈ values, m.Vouches π v) :
    Eval.Ends (Eval.callHost f shape values) m
      (fun v m' => m'.Tended registry π ∧ m'.Vouches π v) (fun _ m' => m'.Tended registry π) := by
  have hworld : ({ m with world := (f.call values m.world).2 } : Machine ω).Tended registry π :=
    hm.of_scopes_eq rfl rfl
  unfold Eval.Ends
  rw [Eval.callHost_eq]
  cases hresult : Eval.hostResult f.name shape (f.call values m.world).1 with
  | error e => exact hworld
  | ok v =>
    refine ⟨hworld, fun c hc => ?_⟩
    subst hc
    exact hvalues _ (Eval.mem_of_hostResult hf hp hresult) c rfl

theorem ends_prepareHost {name : String} {args : List Node} {env : ScopeId} {m : Machine ω}
    {f : HostFunction ω} (hm : m.Tended registry π) (hf : m.hostFunction? env name = some f)
    (ih : ∀ u, (⟨.call name args, env, m⟩ : Task ω).Operand u →
      u.machine.Tended registry π → u.Sound registry π) :
    Eval.Ends (Eval.prepareHost m.entry f args env) m.counted
      (fun p m' => m'.Tended registry π ∧ ∀ v ∈ p.2, m'.Vouches π v)
      (fun _ m' => m'.Tended registry π) := by
  have hcounted : m.counted.Tended registry π := hm.of_scopes_eq rfl rfl
  cases harity : f.signature.checkArity f.name args.length with
  | error e =>
    rw [Eval.prepareHost, harity]
    exact hcounted
  | ok _ =>
    cases hshape : f.signature.returnShape f.name with
    | error e =>
      rw [Eval.prepareHost, harity, hshape]
      exact hcounted
    | ok shape =>
      have hargs : args ++ [] = args := List.append_nil args
      rw [Eval.prepareHost_of_checks harity hshape]
      exact (ends_hostArguments hm hf (hargs.symm ▸ harity) hshape (hargs.symm ▸ ih)).bind
        fun values m' _ hvalues => hvalues

/-- A call that is not refused for the depth goes on with the body of the closure. -/
theorem ends_enter {name : String} {args : List Node} {env : ScopeId} {m m' : Machine ω}
    {c : Closure} {bindings : Bindings} (hm : m'.Tended registry π)
    (hf : m.hostFunction? env name = none) (hc : m.lookup env name = some (.closure c))
    (hlen : args.length = c.arity)
    (hparams : Eval.evalParams m.entry [] c.params args env m.counted = .ok bindings m')
    (ihbody : ∀ u, (⟨.call name args, env, m⟩ : Task ω).Body u → u.Sound registry π) :
    Eval.Ends (m.entry name c bindings) m'
      (fun v m' => m'.Tended registry π ∧ m'.Vouches π v) (fun _ m' => m'.Tended registry π) := by
  have hdepth := depth_of_evalParams hparams
  cases hleft : maxCallDepth - m.depth with
  | zero =>
    rw [Machine.entry, hleft]
    exact hm
  | succ left =>
    have hbody := ihbody _ (.enter hf hc hlen hparams (by omega))
    have hentry : (m'.entered c bindings).entry = Eval.enter left :=
      congrArg Eval.enter (show maxCallDepth - (m'.depth + 1) = left by omega)
    rw [Machine.entry, hleft, Eval.ends_enter, ← hentry]
    exact Eval.Ends.imp hbody
      (fun v m'' hv => ⟨hv.1.of_scopes_eq rfl rfl, hv.2.later (.of_scopes_eq rfl)⟩)
      fun e m'' he => Machine.Tended.of_scopes_eq he rfl rfl

theorem Ready.sound (hregistry : registry.ReturnsArguments) (h : t.Ready registry π)
    (ih : ∀ u, t.Operand u → u.machine.Tended registry π → u.Sound registry π)
    (ihbody : ∀ u, t.Body u → u.Sound registry π) : t.Sound registry π := by
  obtain ⟨node, env, m⟩ := t
  have hm : m.Tended registry π := h.machine
  change Eval.Ends (Eval.evalNode m.entry node env) m _ _
  cases node with
  | list children =>
    rw [Eval.evalNode]
    exact hm
  | number literal | str text | bool value =>
    rw [Eval.evalNode]
    exact ⟨hm, Machine.vouches_of_ne (by simp)⟩
  | var name =>
    rw [Eval.evalNode, Eval.readVar, Eval.ends_get_bind]
    cases hv : m.lookup env name with
    | some v => exact ⟨hm, hm.lookup hv⟩
    | none => exact hm
  | define name value =>
    rw [Eval.evalNode, Eval.ends_get_bind]
    split
    case isTrue => exact hm
    case isFalse hlocal =>
      refine (ih _ (.define (by simpa using hlocal)) hm).bind fun v m' _ hv => ?_
      unfold Eval.Ends Eval.define
      cases hdefine : m'.define env name v with
      | ok m'' => exact ⟨hv.1.define hv.2 hdefine, Machine.vouches_of_ne (by simp)⟩
      | error e => exact hv.1
  | assign name value =>
    rw [Eval.evalNode, Eval.ends_get_bind]
    split
    case isTrue => exact hm
    case isFalse hbound =>
      have hsome : (m.lookup env name).isSome = true := by
        simpa [Option.isSome_iff_ne_none] using hbound
      refine (ih _ (.assign hsome) hm).bind fun v m' _ hv => ?_
      unfold Eval.Ends Eval.assign
      cases hassign : m'.assign env name v with
      | ok m'' => exact ⟨hv.1.assign hv.2 hassign, Machine.vouches_of_ne (by simp)⟩
      | error e => exact hv.1
  | cond test conseq alt =>
    rw [Eval.evalNode]
    refine (ih _ .test hm).bind fun v m' htest hv => ?_
    split
    · have ho : (⟨.cond test conseq alt, env, m⟩ : Task ω).Operand ⟨conseq, env, m'⟩ :=
        .conseq htest
      exact (Eval.ends_entry ho.spec.2).2 (ih _ ho hv.1)
    · have ho : (⟨.cond test conseq alt, env, m⟩ : Task ω).Operand ⟨alt, env, m'⟩ := .alt htest
      exact (Eval.ends_entry ho.spec.2).2 (ih _ ho hv.1)
    · exact hv.1
  | begin body =>
    rw [Eval.evalNode]
    have hbody : body ++ [] = body := List.append_nil body
    exact ends_items hm (hbody.symm ▸ ih)
  | lambda params name args =>
    rw [Eval.evalNode]
    refine ⟨hm.of_scopes_eq rfl rfl, fun c hc => ?_⟩
    cases hc
    exact ⟨h.env, π.made h.known .lambda⟩
  | call name args =>
    cases Eval.dispatch m env name args with
    | host f hf =>
      unfold Eval.Ends
      rw [Eval.evalNode_call_host hf]
      refine (ends_prepareHost hm hf ih).bind fun p m' hp hpost => ?_
      exact ends_callHost (hm.host hregistry hf) (Eval.prepareHost_prepared hp) hpost.1 hpost.2
    | closure c hf hc hlen =>
      unfold Eval.Ends
      rw [Eval.evalNode_call_closure hf hc hlen]
      exact (ends_allArguments hm hf hc hlen ih).bind fun b m' hparams hb =>
        ends_enter hb.1 hf hc hlen hparams ihbody
    | refused e heq =>
      unfold Eval.Ends
      rw [heq m.entry]
      exact hm.of_scopes_eq rfl rfl

/-- Once the first task may be carried out, all that it leads to may, and all of it leaves what it
should. -/
theorem Ready.course (hregistry : registry.ReturnsArguments) (h : t.Ready registry π) :
    t.Sound registry π ∧ ∀ u, t.Starts u → u.Ready registry π := by
  -- The induction is on the tasks that a task starts, which come to an end.
  induction starts_accessible t with
  | intro t _ ih =>
    have hoperand : ∀ u, t.Operand u → u.machine.Tended registry π → u.Sound registry π :=
      fun u ho hm => (ih u (.inl ho) (h.of_operand ho hm)).1
    have hbody : ∀ u, t.Body u → u.Sound registry π :=
      fun u hb => (ih u (.inr hb) (h.body hoperand hb)).1
    refine ⟨h.sound hregistry hoperand hbody, fun u hu => ?_⟩
    rcases hu with ho | hb
    · exact h.operand hoperand ho
    · exact h.body hoperand hb

theorem Ready.reaches (hregistry : registry.ReturnsArguments) (h : t.Ready registry π)
    (hu : t.Reaches u) : u.Ready registry π := by
  induction hu with
  | refl => exact h
  | tail _ hstarts ih => exact (ih.course hregistry).2 _ hstarts

end Task

end HostLisp
