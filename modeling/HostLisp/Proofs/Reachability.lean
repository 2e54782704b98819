import HostLisp.Proofs.Comparison
import HostLisp.Proofs.Library

/-!
# What an evaluation can reach

Scopes are never given up, so a machine holds many that no program can get at any more.  This file
shows that they do not matter.  The scopes that an evaluation has anything to do with are those
reachable from the scope it takes place in: the scopes around a reachable one, and the scopes that
closures were made in which a reachable one binds.  The bindings of all others are neither read nor
written.

Not being read is a statement about two evaluations, on machines that differ there.  `Comparison`
takes care of the recursion, so what is left are single steps.  The set of scopes that are out of
reach is fixed at the start (`Machine.Unreachable`) and does not change: a scope that is opened
later has a new number, and what is captured, bound or returned is always in reach
(`Machine.Shielded`).  Host functions are where closures could come from somewhere else, so they
may return only closures that they are given.
-/

namespace HostLisp

variable {ω : Type}

/-! ## Host functions that make up no closures -/

/-- On arguments that fit, a closure that the function returns is one of them. -/
def HostFunction.ReturnsArguments (f : HostFunction ω) : Prop :=
  ∀ args world c, f.signature.Fits args → (f.call args world).1 = .ok (.closure c) →
    .closure c ∈ args

def Registry.ReturnsArguments (r : Registry ω) : Prop :=
  ∀ name f, r.get? name = some f → f.ReturnsArguments

/-- The library functions return no closures at all. -/
theorem Library.registry_returnsArguments : (Library.registry : Registry ω).ReturnsArguments := by
  intro name f h args world c _ hc
  obtain ⟨e, he, rfl⟩ := Library.exists_entry_of_get? h
  obtain ⟨k, -, hk, -, hyields⟩ := (Library.entries_sound e he).yields
  exact absurd (hyields args _ (Library.Entry.toHost_eq_ok hc)).symm hk

/-! ## Reachable scopes -/

/-- The value of a name after a name was rebound. -/
theorem Bindings.get?_replace (b : Bindings) (name x : String) (v : Value) :
    (b.replace name v).get? x =
      if x = name then (b.get? name).map fun _ => v else b.get? x := by
  unfold Bindings.replace Bindings.get?
  induction b with
  | nil => simp
  | cons entry rest ih =>
    rw [List.map_cons, List.lookup_cons, List.lookup_cons, List.lookup_cons, ih]
    by_cases hentry : entry.1 = name
    · by_cases hx : x = name
      · simp [hentry, hx]
      · simp [hentry, hx, beq_eq_false_iff_ne.2 hx]
    · by_cases hx : x = name
      · simp [hentry, hx, beq_eq_false_iff_ne.2 (Ne.symm hentry)]
      · simp [hentry, hx]

namespace Machine

/-- The scopes that can be got at from `env`. -/
inductive Reachable (m : Machine ω) (env : ScopeId) : ScopeId → Prop where
  | here : m.Reachable env env
  | around {id id' : ScopeId} : m.Reachable env id → id' ∈ m.outer id → m.Reachable env id'
  | captured {id : ScopeId} {name : String} {c : Closure} :
    m.Reachable env id → (m.bindings id).get? name = some (.closure c) →
      m.Reachable env c.captured

/-- The scopes of the machine that are out of reach from `env`. -/
def Unreachable (m : Machine ω) (env id : ScopeId) : Prop :=
  id < m.scopes.size ∧ ¬ m.Reachable env id

/-- Machines that differ in nothing but the bindings of hidden scopes. -/
structure AlikeExcept (hidden : ScopeId → Prop) (m₁ m₂ : Machine ω) : Prop where
  globals : m₁.globals = m₂.globals
  size : m₁.scopes.size = m₂.scopes.size
  registry : ∀ id, m₁.registry? id = m₂.registry? id
  outer : ∀ id, m₁.outer id = m₂.outer id
  bindings : ∀ id, ¬ hidden id → m₁.bindings id = m₂.bindings id
  calls : m₁.calls = m₂.calls
  depth : m₁.depth = m₂.depth
  closures : m₁.closures = m₂.closures
  world : m₁.world = m₂.world

/-- No scope leads to a hidden one unless it is hidden itself. -/
structure Shielded (hidden : ScopeId → Prop) (m : Machine ω) : Prop where
  /-- So a new scope is never hidden. -/
  old : ∀ id, hidden id → id < m.scopes.size
  outer : ∀ id, ¬ hidden id → ∀ id' ∈ m.outer id, ¬ hidden id'
  captured : ∀ id name c, ¬ hidden id → (m.bindings id).get? name = some (.closure c) →
    ¬ hidden c.captured

variable {hidden : ScopeId → Prop} {m m₁ m₂ : Machine ω} {env id : ScopeId}
  {f : Bindings → Bindings}

theorem Shielded.chain (h : m.Shielded hidden) (henv : ¬ hidden env) :
    ∀ id ∈ m.chain env, ¬ hidden id := by
  intro id hid
  rcases List.mem_cons.1 hid with rfl | hid
  · exact henv
  · exact h.outer env henv id hid

/-- What is out of reach is hidden from everything that is not. -/
theorem shielded_unreachable (m : Machine ω) (env : ScopeId) : m.Shielded (m.Unreachable env) := by
  have hreach : ∀ id, ¬ m.Unreachable env id → id < m.scopes.size → m.Reachable env id := by
    intro id hid hsize
    exact Classical.byContradiction fun hnot => hid ⟨hsize, hnot⟩
  refine ⟨fun id hid => hid.1, fun id hid id' hid' hnot => ?_, fun id name c hid hc hnot => ?_⟩
  · by_cases hsize : id < m.scopes.size
    · exact hnot.2 (.around (hreach id hid hsize) hid')
    · rw [outer_of_size_le (Nat.le_of_not_lt hsize)] at hid'
      cases hid'
  · by_cases hsize : id < m.scopes.size
    · exact hnot.2 (.captured (hreach id hid hsize) hc)
    · rw [bindings_of_size_le (Nat.le_of_not_lt hsize)] at hc
      cases hc

/-! ### Single operations -/

theorem AlikeExcept.updateBindings (h : m₁.AlikeExcept hidden m₂) :
    (m₁.updateBindings env f).AlikeExcept hidden (m₂.updateBindings env f) where
  globals := h.globals
  size := by rw [size_updateBindings, size_updateBindings, h.size]
  registry id := by rw [registry?_updateBindings, registry?_updateBindings, h.registry]
  outer id := by rw [outer_updateBindings, outer_updateBindings, h.outer]
  bindings id hid := by
    rw [bindings_updateBindings, bindings_updateBindings, h.size, h.bindings id hid]
  calls := h.calls
  depth := h.depth
  closures := h.closures
  world := h.world

theorem Shielded.updateBindings (h : m.Shielded hidden)
    (hf : ∀ name c, (f (m.bindings env)).get? name = some (.closure c) → ¬ hidden c.captured) :
    (m.updateBindings env f).Shielded hidden where
  old id hid := by
    rw [size_updateBindings]
    exact h.old id hid
  outer id hid := by
    rw [outer_updateBindings]
    exact h.outer id hid
  captured id name c hid hc := by
    rw [bindings_updateBindings] at hc
    split at hc
    case isTrue henv => exact hf name c (henv.1 ▸ hc)
    case isFalse => exact h.captured id name c hid hc

theorem AlikeExcept.openChild (h : m₁.AlikeExcept hidden m₂) (bindings : Bindings) :
    (m₁.openChild env bindings).2.AlikeExcept hidden (m₂.openChild env bindings).2 where
  globals := h.globals
  size := by
    unfold Machine.openChild
    rw [size_openScope, size_openScope, h.size]
  registry id := by
    unfold Machine.openChild
    rw [registry?_openScope, registry?_openScope, h.size, h.registry]
  outer id := by
    unfold Machine.openChild
    rw [outer_openScope, outer_openScope, h.size, h.outer, chain, chain, h.outer]
  bindings id hid := by
    unfold Machine.openChild
    rw [bindings_openScope, bindings_openScope, h.size, h.bindings id hid]
  calls := h.calls
  depth := h.depth
  closures := h.closures
  world := h.world

theorem Shielded.openChild (h : m.Shielded hidden) (henv : ¬ hidden env) {bindings : Bindings}
    (hb : ∀ name c, bindings.get? name = some (.closure c) → ¬ hidden c.captured) :
    (m.openChild env bindings).2.Shielded hidden where
  old id hid := by
    unfold Machine.openChild
    rw [size_openScope]
    exact Nat.lt_succ_of_lt (h.old id hid)
  outer id hid := by
    unfold Machine.openChild
    rw [outer_openScope]
    split
    case isTrue => exact h.chain henv
    case isFalse => exact h.outer id hid
  captured id name c hid hc := by
    unfold Machine.openChild at hc
    rw [bindings_openScope] at hc
    split at hc
    case isTrue => exact hb name c hc
    case isFalse => exact h.captured id name c hid hc

end Machine

/-! ## Evaluation stays in reach -/

/-- A value that leads to no hidden scope. -/
def Value.Clear (hidden : ScopeId → Prop) (v : Value) : Prop :=
  ∀ c, v = .closure c → ¬ hidden c.captured

theorem Value.clear_of_kind {hidden : ScopeId → Prop} {v : Value} (h : v.kind ≠ .closure) :
    v.Clear hidden := by
  rintro c rfl
  exact absurd rfl h

/-- Two machines in the course of evaluations that differ in hidden scopes: these have the bindings
that they had at the start, which are `b₁` in the one machine and `b₂` in the other. -/
structure Machine.Concealed (hidden : ScopeId → Prop) (b₁ b₂ : ScopeId → Bindings)
    (m₁ m₂ : Machine ω) : Prop where
  alike : m₁.AlikeExcept hidden m₂
  shielded : m₁.Shielded hidden
  frozen : ∀ id, hidden id → m₁.bindings id = b₁ id ∧ m₂.bindings id = b₂ id
  hosts : ∀ id r, ¬ hidden id → m₁.registry? id = some r → r.ReturnsArguments

section Concealed

variable {hidden : ScopeId → Prop} {b₁ b₂ : ScopeId → Bindings} {m₁ m₂ : Machine ω} {env : ScopeId}

/-- Changes outside the scopes do not matter, as long as the machines stay alike. -/
theorem Machine.Concealed.of_scopes_eq {m₁' m₂' : Machine ω} (h : m₁.Concealed hidden b₁ b₂ m₂)
    (h₁ : m₁'.scopes = m₁.scopes) (h₂ : m₂'.scopes = m₂.scopes)
    (halike : m₁'.AlikeExcept hidden m₂') : m₁'.Concealed hidden b₁ b₂ m₂' where
  alike := halike
  shielded := by
    obtain ⟨hold, houter, hcaptured⟩ := h.shielded
    unfold outer at houter
    unfold bindings at hcaptured
    rw [← h₁] at hold houter hcaptured
    exact ⟨hold, houter, hcaptured⟩
  frozen := by
    have hfrozen := h.frozen
    unfold bindings at hfrozen
    rwa [← h₁, ← h₂] at hfrozen
  hosts := by
    have hhosts := h.hosts
    unfold registry? at hhosts
    rwa [← h₁] at hhosts

theorem Machine.Concealed.looksAlike (h : m₁.Concealed hidden b₁ b₂ m₂) (henv : ¬ hidden env) :
    m₁.LooksAlike m₂ env where
  outer := h.alike.outer env
  bindings id hid := h.alike.bindings id (h.shielded.chain henv id hid)
  registry id _ := h.alike.registry id

theorem Machine.Concealed.lookup_clear (h : m₁.Concealed hidden b₁ b₂ m₂) (henv : ¬ hidden env)
    {name : String} {v : Value} (hv : m₁.lookup env name = some v) : v.Clear hidden := by
  rintro c rfl
  obtain ⟨id, hid, hget⟩ := List.exists_of_findSome?_eq_some hv
  exact h.shielded.captured id name c (h.shielded.chain henv id hid) hget

/-- An update of a scope that is not hidden, with values that lead to no hidden scope. -/
theorem Machine.Concealed.updateBindings (h : m₁.Concealed hidden b₁ b₂ m₂) (henv : ¬ hidden env)
    {f : Bindings → Bindings}
    (hf : ∀ name c, (f (m₁.bindings env)).get? name = some (.closure c) → ¬ hidden c.captured) :
    (m₁.updateBindings env f).Concealed hidden b₁ b₂ (m₂.updateBindings env f) where
  alike := h.alike.updateBindings
  shielded := h.shielded.updateBindings hf
  frozen id hid := by
    have hne : ¬ (env = id ∧ id < m₁.scopes.size) := fun heq => henv (heq.1 ▸ hid)
    rw [bindings_updateBindings, bindings_updateBindings, ← h.alike.size, if_neg hne, if_neg hne]
    exact h.frozen id hid
  hosts id r hid hr := h.hosts id r hid (registry?_updateBindings f ▸ hr)

/-- A scope that is opened is a new one, so it is not hidden. -/
theorem Machine.Concealed.openChild (h : m₁.Concealed hidden b₁ b₂ m₂) (henv : ¬ hidden env)
    {bindings : Bindings}
    (hb : ∀ name c, bindings.get? name = some (.closure c) → ¬ hidden c.captured) :
    (m₁.openChild env bindings).2.Concealed hidden b₁ b₂ (m₂.openChild env bindings).2 where
  alike := h.alike.openChild bindings
  shielded := h.shielded.openChild henv hb
  frozen id hid := by
    have hne : id ≠ m₁.scopes.size := Nat.ne_of_lt (h.shielded.old id hid)
    unfold Machine.openChild
    rw [bindings_openScope, bindings_openScope, ← h.alike.size, if_neg hne, if_neg hne]
    exact h.frozen id hid
  hosts id r hid hr := by
    unfold Machine.openChild at hr
    rw [registry?_openScope] at hr
    split at hr
    · cases hr
    · exact h.hosts id r hid hr

end Concealed

/-- A closure that a call of a host function comes to is one of the arguments. -/
theorem Eval.mem_of_hostResult {f : HostFunction ω} (hf : f.ReturnsArguments) {args : List Node}
    {shape : ReturnShape} {values : List Value} (hp : Prepared f args shape values) {world : ω}
    {c : Closure} (h : hostResult f.name shape (f.call values world).1 = .ok (.closure c)) :
    .closure c ∈ values := by
  rcases hostResult_eq_ok h with hunit | hv
  · cases hunit
  · exact hf values world c hp.fits hv

/-- What a host function makes of clear arguments is clear. -/
theorem Eval.hostResult_clear {hidden : ScopeId → Prop} {f : HostFunction ω}
    (hf : f.ReturnsArguments) {args : List Node} {shape : ReturnShape} {values : List Value}
    (hp : Prepared f args shape values) (hvalues : ∀ v ∈ values, v.Clear hidden) {world : ω}
    {v : Value} (h : hostResult f.name shape (f.call values world).1 = .ok v) : v.Clear hidden := by
  rintro c rfl
  exact hvalues _ (Eval.mem_of_hostResult hf hp h) c rfl

/-- The evaluations of one node on machines that differ in hidden scopes. -/
def Comparison.concealing (hidden : ScopeId → Prop) (b₁ b₂ : ScopeId → Bindings) :
    Comparison ω where
  machine m₁ m₂ := m₁.Concealed hidden b₁ b₂ m₂
  scope env := ¬ hidden env
  value := Value.Clear hidden
  host := HostFunction.ReturnsArguments
  excused _ := False

theorem Comparison.concealing_kept (hidden : ScopeId → Prop) (b₁ b₂ : ScopeId → Bindings) :
    (concealing hidden b₁ b₂ : Comparison ω).Kept where
  view hm hs := hm.looksAlike hs
  constant h := Value.clear_of_kind fun hk => by simp [hk] at h
  lookup hm hs hv := hm.lookup_clear hs hv
  define {m₁ _ env name v} hm hs hv := by
    refine hm.updateBindings hs fun x c hc => ?_
    rw [Bindings.get?, List.lookup_cons] at hc
    split at hc
    · exact hv c (Option.some.inj hc)
    · exact hm.shielded.captured env x c hs hc
  assign {m₁ _ env name v id} hm hs hv hid := by
    have hid' := hm.shielded.chain hs id hid
    refine hm.updateBindings hid' fun x c hc => ?_
    rw [Bindings.get?_replace] at hc
    split at hc
    · obtain ⟨_, -, hvalue⟩ := Option.map_eq_some_iff.1 hc
      exact hv c hvalue
    · exact hm.shielded.captured id x c hid' hc
  lambda {m₁ m₂ env params body} hm hs := by
    have hclosure : (m₂.makeClosure params body env).1 = (m₁.makeClosure params body env).1 := by
      unfold Machine.makeClosure
      rw [hm.alike.closures]
    unfold Eval.makeClosure
    simp only [hclosure]
    refine .ok (fun c hc => by cases hc; exact hs) (hm.of_scopes_eq rfl rfl ?_)
    exact { hm.alike with closures := congrArg (· + 1) hm.alike.closures }
  count hm :=
    hm.of_scopes_eq rfl rfl { hm.alike with calls := congrArg (· + 1) hm.alike.calls }
  hostFunction hm hs hf := by
    obtain ⟨id, hid, r, hr, hget⟩ := Machine.exists_of_hostFunction? hf
    exact hm.hosts id r (hm.shielded.chain hs id hid) hr _ _ hget
  callHost {f args shape values} hf hp hargs m₁ m₂ hm := by
    have hvalues : ∀ v ∈ values, v.Clear hidden := by
      intro v hv
      rcases hargs v hv with hclear | ⟨u, rfl⟩
      · exact hclear
      · exact Value.clear_of_kind (by simp [Value.kind])
    have hworld : Machine.Concealed hidden b₁ b₂ { m₁ with world := (f.call values m₁.world).2 }
        { m₂ with world := (f.call values m₁.world).2 } :=
      hm.of_scopes_eq rfl rfl { hm.alike with world := rfl }
    rw [Eval.callHost_eq, Eval.callHost_eq, ← hm.alike.world]
    cases hresult : Eval.hostResult f.name shape (f.call values m₁.world).1 with
    | ok v => exact .ok (Eval.hostResult_clear hf hp hvalues hresult) hworld
    | error e => exact .error hworld

theorem Comparison.concealing_opens (hidden : ScopeId → Prop) (b₁ b₂ : ScopeId → Bindings) :
    (concealing hidden b₁ b₂ : Comparison ω).Opens where
  enter {m₁ m₂ c bindings} hc hb hm := by
    have hbindings : ∀ name c', bindings.get? name = some (.closure c') → ¬ hidden c'.captured := by
      intro name c' hget
      obtain ⟨before, after, rfl, -⟩ := List.lookup_eq_some_iff.1 hget
      exact hb (name, .closure c') (by simp) c' rfl
    have hopen := hm.openChild (hc c rfl) hbindings
    refine ⟨hm.alike.size, fun hnew => Nat.lt_irrefl _ (hm.shielded.old _ hnew), ?_⟩
    exact hopen.of_scopes_eq rfl rfl
      { hopen.alike with depth := congrArg (· + 1) hm.alike.depth }
  exit hm :=
    hm.of_scopes_eq rfl rfl { hm.alike with depth := congrArg (· - 1) hm.alike.depth }

/-- At the start everything that is not out of reach is alike, and leads nowhere else. -/
theorem Machine.AlikeExcept.concealed {m₁ m₂ : Machine ω} {env : ScopeId}
    (h : m₁.AlikeExcept (m₁.Unreachable env) m₂)
    (hhosts : ∀ id r, m₁.Reachable env id → m₁.registry? id = some r → r.ReturnsArguments) :
    m₁.Concealed (m₁.Unreachable env) m₁.bindings m₂.bindings m₂ where
  alike := h
  shielded := m₁.shielded_unreachable env
  frozen _ _ := ⟨rfl, rfl⟩
  hosts id r hid hr := by
    refine hhosts id r (Classical.byContradiction fun hnot => hid ⟨?_, hnot⟩) hr
    exact Nat.lt_of_not_le fun hsize => by simp [ registry?, Array.getElem?_eq_none hsize] at hr

/-- Scopes out of reach are neither read nor written.  Say that the host functions in reach return
no closures but such as they are given, which goes for the library functions.  Then on two machines
that differ only in the bindings of scopes out of reach, a node evaluates to the same value or fails
with the same error.  The machines still differ only there, so the counts of calls are the same too,
and the scopes out of reach have the bindings that they had. -/
theorem unreachable_scopes_do_not_matter (node : Node) (env : ScopeId) (m₁ m₂ : Machine ω)
    (hhosts : ∀ id r, m₁.Reachable env id → m₁.registry? id = some r → r.ReturnsArguments)
    (halike : m₁.AlikeExcept (m₁.Unreachable env) m₂) :
    (eval node env).answer m₁ = (eval node env).answer m₂ ∧
    ((eval node env).after m₁).AlikeExcept (m₁.Unreachable env) ((eval node env).after m₂) ∧
    (∀ id, m₁.Unreachable env id →
      ((eval node env).after m₁).bindings id = m₁.bindings id ∧
      ((eval node env).after m₂).bindings id = m₂.bindings id) ∧
    (Library.registry : Registry ω).ReturnsArguments := by
  have hscope : ¬ m₁.Unreachable env env := fun h => h.2 .here
  have hkept := Comparison.concealing_kept (ω := ω) (m₁.Unreachable env) m₁.bindings m₂.bindings
  have hopens := Comparison.concealing_opens (ω := ω) (m₁.Unreachable env) m₁.bindings m₂.bindings
  have heval := hkept.eval hopens (fun hm => hm.alike.depth) node hscope
  obtain ⟨hanswer, hafter⟩ := heval.answer_eq (fun _ => id) (halike.concealed hhosts)
  exact ⟨hanswer, hafter.alike, hafter.frozen, Library.registry_returnsArguments⟩

/-- A machine with a counter: `next` was made in scope 1, where `count` is, and scope 2 is left over
from a call that is long done. -/
def Machine.counting (leftover : Bindings) : Machine Unit where
  globals := 0
  scopes := #[
    ⟨[("next", .closure ⟨0, ["by"], ⟨"+", [.var "count", .var "by"]⟩, 1⟩)],
      some Library.registry, []⟩,
    ⟨[("count", .int 3)], none, [0]⟩,
    ⟨leftover, none, [1, 0]⟩]
  calls := 7
  depth := 0
  closures := 1
  world := ()

theorem Machine.counting_reachable {leftover : Bindings} {id : ScopeId}
    (h : (counting leftover).Reachable 0 id) : id = 0 ∨ id = 1 := by
  induction h with
  | here => exact .inl rfl
  | around _ hid ih =>
    rcases ih with rfl | rfl
    · cases hid
    · exact .inl (List.mem_singleton.1 hid)
  | @captured id name c _ hc ih =>
    rcases ih with rfl | rfl
    · change List.lookup name [_] = _ at hc
      rw [List.lookup_cons] at hc
      split at hc
      · cases hc
        exact .inr rfl
      · cases hc
    · change List.lookup name [_] = _ at hc
      rw [List.lookup_cons] at hc
      split at hc <;> cases hc

/-- The program `(begin (set next next) (next 4))`. -/
def Node.advance : Node :=
  .begin [.assign "next" (.var "next"), .call "next" [.number ⟨"4", 4⟩]]

/-- Bindings that would change the sum, if they were seen. -/
def Bindings.stray : Bindings := [("count", .int 9), ("by", .unit)]

/-- Whatever is left over in scope 2, the program comes to 7 and leaves it as it is. -/
theorem counting_ignores_leftovers :
    (Machine.counting []).Unreachable 0 2 ∧
    (Machine.counting []).AlikeExcept ((Machine.counting []).Unreachable 0)
      (Machine.counting Bindings.stray) ∧
    (eval Node.advance 0).answer (Machine.counting Bindings.stray) = .ok (.int 7) ∧
    ((eval Node.advance 0).after (Machine.counting Bindings.stray)).calls = 9 ∧
    ((eval Node.advance 0).after (Machine.counting Bindings.stray)).bindings 2
      = Bindings.stray := by
  have hhidden : (Machine.counting []).Unreachable 0 2 := by
    refine ⟨by decide, fun h => ?_⟩
    rcases Machine.counting_reachable h with h | h <;> cases h
  have halike : (Machine.counting []).AlikeExcept ((Machine.counting []).Unreachable 0)
      (Machine.counting Bindings.stray) := by
    refine ⟨rfl, rfl, fun id => ?_, fun id => ?_, fun id hid => ?_, rfl, rfl, rfl, rfl⟩
    · match id with
      | 0 | 1 | 2 | _ + 3 => rfl
    · match id with
      | 0 | 1 | 2 | _ + 3 => rfl
    · match id with
      | 0 | 1 | _ + 3 => rfl
      | 2 => exact absurd hhidden hid
  have hhosts : ∀ id r, (Machine.counting []).Reachable 0 id →
      Machine.registry? (Machine.counting []) id = some r → r.ReturnsArguments := by
    intro id r hid hr
    rcases Machine.counting_reachable hid with rfl | rfl
    · cases hr
      exact Library.registry_returnsArguments
    · cases hr
  obtain ⟨hanswer, hafter, hfrozen, -⟩ :=
    unreachable_scopes_do_not_matter Node.advance 0 _ _ hhosts halike
  have hstray := (hfrozen 2 hhidden).2
  exact ⟨hhidden, halike, hanswer.symm.trans rfl, hafter.calls.symm.trans rfl, hstray⟩

end HostLisp
