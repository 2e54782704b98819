import HostLisp.Proofs.Reachability
import HostLisp.Proofs.ScopeGrowth
import HostLisp.Proofs.Termination
import Mathlib.Data.List.Induction

/-!
# The course of an evaluation

The tasks that a task starts come one after another.  Each begins with the machine that those before
it have left, and the task goes on with the machine that it leaves itself.

The operands of a form are evaluated by three loops, one for the expressions of a block and two for
the arguments of calls.  For each there is a principle to show what holds all along
(`Eval.ends_evalBody`, `Eval.ends_evalHostArgs`, `Eval.ends_evalParams`), in which an operand comes
with just what `Task.Operand` asks of it.

A discipline says what holds of every machine by itself.  What is said of two machines, an earlier
and a later one, goes through an evaluation as well, if every single step leads from a machine to
one that is so related to it (`Discipline.Moves`).  The main result is `Discipline.Moves.between`:
in this order stand the beginning of a task, the beginning and the end of whatever it leads to, and
its own end.

Of all machines in the course of an evaluation it holds that scopes stay what they are, so whatever
is known of a scope at one time is known of it at all later ones (`Machine.Before`).
-/

namespace HostLisp

variable {ω : Type}

/-! ## Operands in a row -/

namespace Eval

variable {enter : Enter ω} {env : ScopeId} {m : Machine ω}

theorem evalBody_append (enter : Enter ω) (env : ScopeId) (xs ys : List Node) (last : Value) :
    evalBody enter last (xs ++ ys) env
      = evalBody enter last xs env >>= fun v => evalBody enter v ys env := by
  induction xs generalizing last with
  | nil => simp [evalBody]
  | cons x xs ih => simp [evalBody, ih]

theorem evalHostArgs_append (enter : Enter ω) (f : HostFunction ω) (env : ScopeId)
    (xs ys : List Node) (index : Nat) :
    evalHostArgs enter f index (xs ++ ys) env
      = evalHostArgs enter f index xs env >>= fun vs =>
        evalHostArgs enter f (index + xs.length) ys env >>= fun ws => pure (vs ++ ws) := by
  induction xs generalizing index with
  | nil => simp [evalHostArgs]
  | cons x xs ih =>
    simp only [List.cons_append, evalHostArgs, ih, List.length_cons, bind_assoc, pure_bind]
    rw [Nat.add_right_comm, Nat.add_assoc]

theorem evalParams_append (enter : Enter ω) (env : ScopeId) {ps : List String} {xs : List Node}
    (h : ps.length = xs.length) (qs : List String) (ys : List Node) (bound : Bindings) :
    evalParams enter bound (ps ++ qs) (xs ++ ys) env
      = evalParams enter bound ps xs env >>= fun b => evalParams enter b qs ys env := by
  induction xs generalizing ps bound with
  | nil =>
    obtain rfl := List.length_eq_zero_iff.1 h
    simp [evalParams]
  | cons x xs ih =>
    cases ps with
    | nil => cases h
    | cons p ps =>
      simp only [List.cons_append, evalParams, bind_assoc]
      refine bind_congr fun v => ?_
      split
      · rfl
      · exact ih (Nat.succ.inj h) _

theorem prepareHost_of_checks {f : HostFunction ω} {args : List Node} {shape : ReturnShape}
    (harity : f.signature.checkArity f.name args.length = .ok ())
    (hshape : f.signature.returnShape f.name = .ok shape) :
    prepareHost enter f args env
      = evalHostArgs enter f 0 args env >>= fun values => pure (shape, values) := by
  simp [prepareHost, harity, hshape, check]

/-- An argument that is not read off a literal. -/
theorem hostArg_eq_bind {f : HostFunction ω} {index : Nat} {arg : Node}
    (h : ∀ literal, arg = .number literal → f.signature.param? index ≠ some .uint)
    (x : Eval ω Value) :
    hostArg f.name ((f.signature.param? index).getD .any) arg x
      = x >>= fun v => check (bindArgument f.name ((f.signature.param? index).getD .any) v) := by
  unfold hostArg
  split
  case h_1 slot literal hslot =>
    have hne := h literal rfl
    cases hparam : f.signature.param? index <;> simp_all
  case h_2 => rfl

/-! ### What holds all along

Each of these is an induction on how many operands are done with.  What is known when the next one
is started is that those before it have succeeded. -/

theorem ends_evalBody {nodes : List Node} {first : Value} {P : Value → Machine ω → Prop}
    {E : Error → Machine ω → Prop} (start : P first m)
    (next : ∀ done node rest last m', nodes = done ++ node :: rest →
      evalBody enter first done env m = .ok last m' → P last m' →
      Ends (evalNode enter node env) m' P E) :
    Ends (evalBody enter first nodes env) m P E := by
  induction nodes using List.reverseRecOn with
  | nil =>
    rw [evalBody]
    exact start
  | append_singleton done node ih =>
    have hdone := ih fun before n rest last m' hsplit => next before n (rest ++ [node]) last m' (by
      simp [hsplit])
    rw [evalBody_append]
    refine hdone.bind fun last m' hok hP => ?_
    have hnode := next done node [] last m' rfl hok hP
    simpa [evalBody] using hnode

theorem ends_evalHostArgs {f : HostFunction ω} {args : List Node}
    {P : List Value → Machine ω → Prop} {E : Error → Machine ω → Prop} (start : P [] m)
    (next : ∀ done arg rest values m', args = done ++ arg :: rest →
      evalHostArgs enter f 0 done env m = .ok values m' → P values m' →
      Ends (hostArg f.name ((f.signature.param? done.length).getD .any) arg
        (evalNode enter arg env)) m' (fun v m'' => P (values ++ [v]) m'') E) :
    Ends (evalHostArgs enter f 0 args env) m P E := by
  induction args using List.reverseRecOn with
  | nil =>
    rw [evalHostArgs]
    exact start
  | append_singleton done arg ih =>
    have hdone := ih fun before a rest values m' hsplit =>
      next before a (rest ++ [arg]) values m' (by simp [hsplit])
    rw [evalHostArgs_append]
    refine hdone.bind fun values m' hok hP => ?_
    have harg := next done arg [] values m' rfl hok hP
    simp only [evalHostArgs, pure_bind, bind_assoc, Nat.zero_add]
    exact harg.bind fun v m'' _ hv => hv

theorem ends_evalParams {params : List String} {args : List Node}
    (hlen : params.length = args.length) {P : Bindings → Machine ω → Prop}
    {E : Error → Machine ω → Prop} (start : P [] m)
    (refused : ∀ name b m', P b m' → E (.bind (.alreadyDefined name)) m')
    (next : ∀ done arg rest b m', args = done ++ arg :: rest →
      evalParams enter [] (params.take done.length) done env m = .ok b m' → P b m' →
      Ends (evalNode enter arg env) m' (fun v m'' => P b m'' ∧ ∀ name, P ((name, v) :: b) m'') E) :
    Ends (evalParams enter [] params args env) m P E := by
  induction args using List.reverseRecOn generalizing params with
  | nil =>
    rw [evalParams]
    · exact start
    · simp
  | append_singleton done arg ih =>
    obtain rfl | ⟨ps, p, rfl⟩ := params.eq_nil_or_concat
    · simp at hlen
    rw [List.concat_eq_append] at hlen next ⊢
    have hps : ps.length = done.length := by simpa using hlen
    have hdone := ih hps fun before a rest b m' hsplit hok hP => by
      have htake : (ps ++ [p]).take before.length = ps.take before.length :=
        List.take_append_of_le_length (by simp [hps, hsplit])
      exact next before a (rest ++ [arg]) b m' (by simp [hsplit]) (htake ▸ hok) hP
    rw [evalParams_append enter env hps]
    refine hdone.bind fun b m' hok hP => ?_
    have harg := next done arg [] b m' rfl (by simpa [← hps] using hok) hP
    simp only [evalParams]
    refine harg.bind fun v m'' _ hv => ?_
    split
    · exact refused p b m'' hv.1
    · exact hv.2 p

end Eval

/-! ## From earlier machines to later ones -/

/-- With as many calls in progress, closures are entered alike. -/
theorem Machine.evalNode_entry {m m' : Machine ω} (h : m'.depth = m.depth) (node : Node)
    (env : ScopeId) : Eval.evalNode m.entry node env m' = eval node env m' := by
  change _ = Eval.evalNode m'.entry node env m'
  rw [Machine.entry, Machine.entry, h]

theorem Machine.evalNode_entry_bind {m m' : Machine ω} (h : m'.depth = m.depth) (node : Node)
    (env : ScopeId) (k : Value → Eval ω Value) :
    (Eval.evalNode m.entry node env >>= k) m' = (eval node env >>= k) m' := by
  simp only [bind, EStateM.bind, Machine.evalNode_entry h]

theorem Task.Operand.env_eq {t u : Task ω} (h : t.Operand u) : u.env = t.env := by
  cases h <;> rfl

namespace Discipline

variable {D : Discipline ω} {R : Machine ω → Machine ω → Prop} {t u : Task ω} {m₀ : Machine ω}

/-- A task that the discipline has something to say about. -/
structure Allows (D : Discipline ω) (t : Task ω) : Prop where
  machine : D.machine t.machine
  scope : D.scope t.env
  node : D.node t.node

/-- Every step of an evaluation under the discipline leads to a machine that is related to the one
before.  Three of them change scopes, and whatever leaves the scopes alone does not matter. -/
structure Moves (D : Discipline ω) (R : Machine ω → Machine ω → Prop) : Prop where
  trans : ∀ {m m' m''}, R m m' → R m' m'' → R m m''
  same : ∀ {m m' : Machine ω}, m'.scopes = m.scopes → R m m'
  define : ∀ {m m' env name n v}, D.node (.define name n) → m.define env name v = .ok m' → R m m'
  assign : ∀ {m m' env name n v}, D.node (.assign name n) → m.assign env name v = .ok m' → R m m'
  openChild : ∀ (m : Machine ω) env bindings, R m (m.openChild env bindings).2

/-- The discipline for what comes after a machine. -/
def since (D : Discipline ω) (R : Machine ω → Machine ω → Prop) (m₀ : Machine ω) : Discipline ω :=
  { D with machine := fun m => D.machine m ∧ R m₀ m }

theorem Moves.kept (hR : D.Moves R) (hD : D.Kept) (m₀ : Machine ω) : (D.since R m₀).Kept where
  operand := hD.operand
  bindError := hD.bindError
  nestedList := hD.nestedList
  constant := hD.constant
  lookup hm := hD.lookup hm.1
  define hn hm hs hv h := ⟨hD.define hn hm.1 hs hv h, hR.trans hm.2 (hR.define hn h)⟩
  assign hn hm hs hv h := ⟨hD.assign hn hm.1 hs hv h, hR.trans hm.2 (hR.assign hn h)⟩
  lambda hn hm hs :=
    ⟨(hD.lambda hn hm.1 hs).1, (hD.lambda hn hm.1 hs).2, hR.trans hm.2 (hR.same rfl)⟩
  count hm := ⟨hD.count hm.1, hR.trans hm.2 (hR.same rfl)⟩
  hostFunction hm := hD.hostFunction hm.1
  callHost hf hp hargs m hm :=
    ((hD.callHost hf hp hargs m hm.1).and (Eval.ends_callHost _ _ _ m)).imp
      (fun _ _ h => ⟨h.1.1, h.1.2, hR.trans hm.2 (hR.same (h.2 ▸ rfl))⟩)
      fun _ _ h => ⟨h.1.1, h.1.2, hR.trans hm.2 (hR.same (h.2 ▸ rfl))⟩

theorem Moves.opens (hR : D.Moves R) (ho : D.Opens) (m₀ : Machine ω) : (D.since R m₀).Opens where
  depth d hm := ⟨ho.depth d hm.1, hR.trans hm.2 (hR.same rfl)⟩
  openChild hc hb hm :=
    ⟨⟨(ho.openChild hc hb hm.1).1, hR.trans hm.2 (hR.openChild _ _ _)⟩, (ho.openChild hc hb hm.1).2⟩
  body := ho.body

/-! ### All through a task -/

section Course

variable (hD : D.Kept) (ho : D.Opens)
include hD ho

theorem Allows.ends (h : D.Allows t) :
    Eval.Ends (eval t.node t.env) t.machine (fun v m => D.value v ∧ D.machine m)
      fun e m => D.error e ∧ D.machine m :=
  hD.eval ho h.node h.scope t.machine h.machine

theorem Allows.final (h : D.Allows t) : D.machine t.final :=
  (hD.eval ho h.node h.scope).after h.machine

theorem Allows.operand (h : D.Allows t) (hop : t.Operand u) : D.Allows u := by
  have hoperands := hD.operand h.node
  refine ⟨?_, hop.env_eq ▸ h.scope, hoperands _ hop.spec.1⟩
  have hm := h.machine
  have hcounted := hD.count hm
  have henters (m : Machine ω) : D.Enters m.entry := hD.enter ho _
  cases hop with
  | define | assign | test => exact hm
  | conseq htest | alt htest =>
    exact ((hD.eval ho (hoperands _ (by simp [Node.operands])) h.scope _ hm).of_ok htest).2
  | item hdone =>
    exact ((hD.evalBody (henters _) _ _ _ (hD.constant (by decide))
      (fun n hn => hoperands n (List.mem_append_left _ hn)) h.scope _ hm).of_ok hdone).2
  | hostArgument _ _ _ hdone _ =>
    exact ((hD.evalHostArgs (henters _) _ _ _ _
      (fun n hn => hoperands n (List.mem_append_left _ hn)) h.scope _ hcounted).of_ok hdone).2
  | argument _ _ _ hdone =>
    exact ((hD.evalParams (henters _) _ _ _ _ (by simp [Bound])
      (fun n hn => hoperands n (List.mem_append_left _ hn)) h.scope _ hcounted).of_ok hdone).2

theorem Allows.body (h : D.Allows t) (hb : t.Body u) : D.Allows u := by
  cases hb with
  | enter hf hc hlen hparams hlimit =>
    have hclosure := hD.lookup h.machine h.scope hc
    obtain ⟨hbound, hm⟩ := (hD.evalParams (hD.enter ho _) _ _ _ _ (by simp [Bound])
      (hD.operand h.node) h.scope _ (hD.count h.machine)).of_ok hparams
    obtain ⟨hopen, hscope⟩ := ho.openChild hclosure hbound hm
    exact ⟨ho.depth _ hopen, hscope, ho.body hclosure⟩

theorem Allows.starts (h : D.Allows t) (hu : t.Starts u) : D.Allows u :=
  hu.elim (h.operand hD ho) (h.body hD ho)

theorem Allows.reaches (h : D.Allows t) (hu : t.Reaches u) : D.Allows u := by
  induction hu with
  | refl => exact h
  | tail _ hstarts ih => exact ih.starts hD ho hstarts

/-- What is evaluated after an operand goes on from where the operand ends. -/
theorem Moves.continues (hR : D.Moves R) (h : D.Allows t) (hop : t.Operand u) :
    ∃ k : Value → Eval ω Value, t.result = (eval u.node u.env >>= k) u.machine ∧
      ∀ v m, D.value v → D.machine m →
        Eval.Ends (k v) m (fun _ m' => R m m') fun _ m' => R m m' := by
  have hdepth := hop.spec.2
  have hn := h.node
  have hoperands := hD.operand h.node
  have hs := h.scope
  have hkept (m₀ : Machine ω) := hR.kept hD m₀
  have henters (m m₀ : Machine ω) : (D.since R m₀).Enters m.entry :=
    (hkept m₀).enter (hR.opens ho m₀) _
  have hsteps : ∀ {x : Eval ω Value} {Q m}, (D.since R m).Upholds x Q → D.machine m →
      Eval.Ends x m (fun _ m' => R m m') fun _ m' => R m m' := fun hx hm =>
    (hx _ ⟨hm, hR.same rfl⟩).imp (fun _ _ h => h.2.2) fun _ _ h => h.2.2
  cases hop with
  | @define name value env m hlocal =>
    refine ⟨Eval.define env name, ?_, fun v m₀ hv => hsteps ((hkept m₀).defineStep hn hs hv)⟩
    change Eval.evalNode m.entry (.define name value) env m = _
    rw [Eval.evalNode, Eval.get_bind, hlocal]
    rfl
  | @assign name value env m hbound =>
    refine ⟨Eval.assign env name, ?_, fun v m₀ hv => hsteps ((hkept m₀).assignStep hn hs hv)⟩
    have hsome : (m.lookup env name).isNone = false := by simpa using hbound
    change Eval.evalNode m.entry (.assign name value) env m = _
    rw [Eval.evalNode, Eval.get_bind, hsome]
    rfl
  | @test test conseq alt env m =>
    have hcond : ∃ k : Value → Eval ω Value,
        Eval.evalNode m.entry (.cond test conseq alt) env = Eval.evalNode m.entry test env >>= k ∧
          ∀ v m₀, (D.since R m₀).Upholds (k v) D.value := by
      rw [Eval.evalNode]
      refine ⟨_, rfl, fun v m₀ => ?_⟩
      split
      · exact (hkept m₀).evalNode (henters m m₀) conseq env
          (hoperands _ (by simp [Node.operands])) hs
      · exact (hkept m₀).evalNode (henters m m₀) alt env
          (hoperands _ (by simp [Node.operands])) hs
      · exact (hkept m₀).refuse _
    obtain ⟨k, heq, hk⟩ := hcond
    exact ⟨k, congrFun heq m, fun v m₀ _ => hsteps (hk v m₀)⟩
  | @conseq test conseq alt env m m' htest =>
    refine ⟨pure, ?_, fun v m₀ hv => hsteps (upholds_pure hv)⟩
    have htest' : Eval.evalNode m.entry test env m = .ok (.bool true) m' := htest
    change Eval.evalNode m.entry (.cond test conseq alt) env m = _
    rw [bind_pure, Eval.evalNode, Eval.bind_of_ok htest']
    exact Machine.evalNode_entry hdepth conseq env
  | @alt test conseq alt env m m' htest =>
    refine ⟨pure, ?_, fun v m₀ hv => hsteps (upholds_pure hv)⟩
    have htest' : Eval.evalNode m.entry test env m = .ok (.bool false) m' := htest
    change Eval.evalNode m.entry (.cond test conseq alt) env m = _
    rw [bind_pure, Eval.evalNode, Eval.bind_of_ok htest']
    exact Machine.evalNode_entry hdepth alt env
  | @item done node rest env last m m' hdone =>
    have hrest : ∀ n ∈ rest, D.node n := fun n hmem => hoperands n (by simp [Node.operands, hmem])
    refine ⟨fun v => Eval.evalBody m.entry v rest env, ?_, fun v m₀ hv =>
      hsteps ((hkept m₀).evalBody (henters m m₀) rest env v hv hrest hs)⟩
    change Eval.evalNode m.entry (.begin (done ++ node :: rest)) env m = _
    rw [Eval.evalNode, Eval.evalBody_append, Eval.bind_of_ok hdone, Eval.evalBody]
    exact Machine.evalNode_entry_bind hdepth node env _
  | @hostArgument name done arg rest env f shape values m m' hf harity hshape hdone hslot =>
    have hrest : ∀ n ∈ rest, D.node n := fun n hmem => hoperands n (by simp [Node.operands, hmem])
    refine ⟨fun v =>
      Eval.check (bindArgument f.name ((f.signature.param? done.length).getD .any) v) >>= fun v =>
        Eval.evalHostArgs m.entry f (done.length + 1) rest env >>= fun vs =>
          Eval.callHost f shape (values ++ v :: vs), ?_, fun v m₀ _ hm₀ => ?_⟩
    · change Eval.evalNode m.entry (.call name (done ++ arg :: rest)) env m = _
      rw [Eval.evalNode_call_host hf, Eval.prepareHost_of_checks harity hshape,
        Eval.evalHostArgs_append]
      simp only [bind_assoc, pure_bind]
      rw [Eval.bind_of_ok hdone, Nat.zero_add, Eval.evalHostArgs]
      simp only [bind_assoc, pure_bind, Eval.hostArg_eq_bind hslot]
      exact Machine.evalNode_entry_bind hdepth arg env _
    · refine Eval.Ends.bind (Eval.ends_check (fun _ _ => rfl) fun _ => hR.same rfl) ?_
      rintro w _ - rfl
      have hargs := (hkept m₀).evalHostArgs (henters m m₀) rest f (done.length + 1) env hrest hs
      refine ((hargs m₀ ⟨hm₀, hR.same rfl⟩).imp (fun _ _ h => h.2.2) fun _ _ h => h.2.2).bind ?_
      -- The host's turn changes no scope, so nothing has to be known of the arguments.
      exact fun vs m₁ _ hm₁ => (Eval.ends_callHost f shape _ m₁).imp
        (fun _ _ h => hR.trans hm₁ (hR.same (h ▸ rfl))) fun _ _ h =>
          hR.trans hm₁ (hR.same (h ▸ rfl))
  | @argument name done arg rest env c bindings m m' hf hc hlen hdone =>
    have hrest : ∀ n ∈ rest, D.node n := fun n hmem => hoperands n (by simp [Node.operands, hmem])
    have hclosure := hD.lookup h.machine hs hc
    have hbindings := ((hD.evalParams (hD.enter ho _) _ _ _ _ (by simp [Bound])
      (fun n hmem => hoperands n (List.mem_append_left _ hmem)) hs _
        (hD.count h.machine)).of_ok hdone).1
    have hcount : c.params.length = (done ++ arg :: rest).length := hlen.symm
    obtain ⟨p, ps, hparams⟩ : ∃ p ps, c.params.drop done.length = p :: ps := by
      refine List.exists_cons_of_ne_nil fun hnil => ?_
      have := List.drop_eq_nil_iff.1 hnil
      simp only [List.length_append, List.length_cons] at hcount
      omega
    have htake : (c.params.take done.length).length = done.length := by
      simp only [List.length_append, List.length_cons] at hcount
      rw [List.length_take]
      omega
    refine ⟨fun v => (if bindings.contains p then Eval.refuse (.alreadyDefined p)
      else Eval.evalParams m.entry ((p, v) :: bindings) ps rest env) >>= fun b =>
        m.entry name c b, ?_, fun v m₀ hv => hsteps (Q := D.value) ?_⟩
    · change Eval.evalNode m.entry (.call name (done ++ arg :: rest)) env m = _
      rw [Eval.evalNode_call_closure hf hc hlen, ← List.take_append_drop done.length c.params,
        Eval.evalParams_append _ env htake, hparams, bind_assoc, Eval.bind_of_ok hdone,
        Eval.evalParams, bind_assoc]
      exact Machine.evalNode_entry_bind hdepth arg env _
    · have hparams : (D.since R m₀).Upholds (if bindings.contains p
          then Eval.refuse (.alreadyDefined p)
          else Eval.evalParams m.entry ((p, v) :: bindings) ps rest env) (D.since R m₀).Bound := by
        split
        · exact (hkept m₀).refuse _
        · exact (hkept m₀).evalParams (henters m m₀) rest ps env _
            (List.forall_mem_cons.2 ⟨hv, hbindings⟩) hrest hs
      exact hparams.bind fun b hb => henters m m₀ name c b hclosure hb

theorem Moves.operand_final (hR : D.Moves R) (h : D.Allows t) (hop : t.Operand u) :
    R u.final t.final := by
  obtain ⟨k, hresult, hk⟩ := hR.continues hD ho h hop
  have hends := (h.operand hD ho hop).ends hD ho
  have heval : eval t.node t.env t.machine = (eval u.node u.env >>= k) u.machine := hresult
  unfold Eval.Ends at hends
  rw [Task.final, Task.final, Eval.after, Eval.after, heval]
  simp only [bind, EStateM.bind]
  cases hu : eval u.node u.env u.machine with
  | ok v m =>
    rw [hu] at hends
    exact (hk v m hends.1 hends.2).after
  | error e m => exact hR.same rfl

/-- A task starts others between its own beginning and end. -/
theorem Moves.starts (hR : D.Moves R) (h : D.Allows t) (hu : t.Starts u) :
    R t.machine u.machine ∧ R u.final t.final := by
  have hsince : (D.since R t.machine).Allows t := ⟨⟨h.machine, hR.same rfl⟩, h.scope, h.node⟩
  refine ⟨(hsince.starts (hR.kept hD _) (hR.opens ho _) hu).machine.2, ?_⟩
  rcases hu with hop | hb
  · exact hR.operand_final hD ho h hop
  · exact hR.same (hb.final_eq ▸ rfl)

/-- So does all that it leads to. -/
theorem Moves.between (hR : D.Moves R) (h : D.Allows t) (hu : t.Reaches u) :
    R t.machine u.machine ∧ R u.machine u.final ∧ R u.final t.final := by
  have hfinal : ∀ {s : Task ω}, D.Allows s → R s.machine s.final := fun {s} hs =>
    have hsince : (D.since R s.machine).Allows s := ⟨⟨hs.machine, hR.same rfl⟩, hs.scope, hs.node⟩
    (hsince.final (hR.kept hD _) (hR.opens ho _)).2
  induction hu with
  | refl => exact ⟨hR.same rfl, hfinal h, hR.same rfl⟩
  | tail hreaches hstarts ih =>
    have hs := h.reaches hD ho hreaches
    obtain ⟨hstart, hend⟩ := hR.starts hD ho hs hstarts
    exact ⟨hR.trans ih.1 hstart, hfinal (hs.starts hD ho hstarts), hR.trans hend ih.2.2⟩

end Course

end Discipline

/-! ## Scopes stay what they are -/

namespace Machine

variable {m m' m'' : Machine ω} {id : ScopeId}

/-- The second machine can be a later state of the first: the scopes are still there, with the
registries and the scopes around them that they had. -/
def Before (m m' : Machine ω) : Prop := m.Grows (fun _ _ => True) m'

theorem Before.of_scopes_eq (h : m'.scopes = m.scopes) : m.Before m' := grows_of_scopes_eq h

theorem Before.refl (m : Machine ω) : m.Before m := .of_scopes_eq rfl

theorem Before.trans (h : m.Before m') (h' : m'.Before m'') : m.Before m'' :=
  Grows.trans h h' fun _ _ _ _ => trivial

theorem Before.lt_size (h : m.Before m') (hid : id < m.scopes.size) : id < m'.scopes.size :=
  Nat.lt_of_lt_of_le hid h.size

theorem Before.chain_eq (h : m.Before m') (hid : id < m.scopes.size) :
    m'.chain id = m.chain id := by
  rw [chain, chain, h.outer id hid]

theorem before_openChild (m : Machine ω) (env : ScopeId) (bindings : Bindings) :
    m.Before (m.openChild env bindings).2 :=
  grows_openScope _

end Machine

namespace Discipline

/-- The discipline that asks for nothing. -/
def any (ω : Type) : Discipline ω where
  machine _ := True
  scope _ := True
  node _ := True
  value _ := True
  host _ := True
  error _ := True

theorem any_kept : (any ω).Kept where
  operand _ _ _ := trivial
  bindError _ := trivial
  nestedList _ := trivial
  constant _ := trivial
  lookup _ _ _ := trivial
  define _ _ _ _ _ := trivial
  assign _ _ _ _ _ := trivial
  lambda _ _ _ := ⟨trivial, trivial⟩
  count _ := trivial
  hostFunction _ _ _ := trivial
  callHost _ _ _ m _ :=
    (Eval.ends_callHost _ _ _ m).imp (fun _ _ _ => ⟨trivial, trivial⟩)
      fun _ _ _ => ⟨trivial, trivial⟩

theorem any_opens : (any ω).Opens where
  depth _ _ := trivial
  openChild _ _ _ := ⟨trivial, trivial⟩
  body _ := trivial

theorem any_allows (t : Task ω) : (any ω).Allows t := ⟨trivial, trivial, trivial⟩

/-- Scopes stay what they are under any discipline. -/
theorem moves_before (D : Discipline ω) : D.Moves Machine.Before where
  trans := .trans
  same := .of_scopes_eq
  define _ h := Machine.grows_define h trivial
  assign _ h := Machine.grows_assign h
  openChild := Machine.before_openChild

end Discipline

namespace Task

variable {t u : Task ω}

theorem before_of_evalParams {m m' : Machine ω} {params : List String} {args : List Node}
    {env : ScopeId} {bindings : Bindings}
    (h : Eval.evalParams m.entry [] params args env m.counted = .ok bindings m') : m.Before m' := by
  have hmoves := Discipline.moves_before (.any ω)
  have hkept := hmoves.kept Discipline.any_kept m
  have hopens := hmoves.opens Discipline.any_opens m
  have henters := hkept.enter hopens (maxCallDepth - m.depth)
  have hparams := hkept.evalParams henters args params env [] (fun _ _ => trivial)
    (fun _ _ => trivial) trivial m.counted ⟨trivial, .of_scopes_eq rfl⟩
  exact (hparams.of_ok h).2.2

/-- All that a task leads to is done after its beginning and before its end. -/
theorem Reaches.between (h : t.Reaches u) :
    t.machine.Before u.machine ∧ u.machine.Before u.final ∧ u.final.Before t.final :=
  (Discipline.moves_before _).between Discipline.any_kept Discipline.any_opens
    (Discipline.any_allows t) h

theorem before_final (t : Task ω) : t.machine.Before t.final :=
  (Reaches.between .refl).2.1

theorem Operand.before (h : t.Operand u) : t.machine.Before u.machine :=
  (Reaches.between (.single (.inl h))).1

theorem Body.before (h : t.Body u) : t.machine.Before u.machine :=
  (Reaches.between (.single (.inr h))).1

end Task

end HostLisp
