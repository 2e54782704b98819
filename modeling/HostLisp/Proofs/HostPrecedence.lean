import HostLisp.Proofs.Session

/-!
# Host functions come first

Scopes are made by programs, and so are the bindings in them.  Still no program gets between a name
that is registered and its host function: of all scopes only the global one offers host functions,
and from every scope that is in use the way out leads to it.

In a tree the way out is an induction on the numbers of scopes (`Machine.Rooted.chain_spec`,
`Machine.Rooted.hostFunction?_eq`).  What is left to show is that the scopes in use are in the tree
(`Machine.InUse.lt_size`).
-/

namespace HostLisp

variable {ω : Type}

namespace Machine

variable {registry : Registry ω} {m m' m₀ : Machine ω} {id env : ScopeId} {name : String}

/-! ## Along a chain -/

/-- A chain is a scope and the chain of the scope it was opened in. -/
theorem Rooted.chain_cons (h : m.Rooted registry) (hpos : 0 < id) (hid : id < m.scopes.size) :
    ∃ p, p < id ∧ p < m.scopes.size ∧ m.outer id = m.chain p ∧ m.chain id = id :: m.chain p := by
  obtain ⟨p, hp, houter⟩ := h.parent id hpos hid
  exact ⟨p, hp, Nat.lt_trans hp hid, houter, by rw [chain, houter]⟩

/-- Numbers go down along a chain, each scope was opened in the next, and the last is the first
scope of all. -/
theorem Rooted.chain_spec (h : m.Rooted registry) (hid : id < m.scopes.size) :
    (∀ x ∈ m.chain id, x ≤ id) ∧ (m.chain id).Nodup ∧ (m.chain id).getLast? = some 0 ∧
      (m.chain id).IsChain fun child parent => m.outer child = m.chain parent := by
  induction id using Nat.strongRecOn with
  | ind id ih =>
    rcases Nat.eq_zero_or_pos id with rfl | hpos
    · rw [h.chain_zero]
      simp
    · obtain ⟨p, hp, hpsize, houter, hchain⟩ := h.chain_cons hpos hid
      obtain ⟨hle, hnodup, hlast, hlinked⟩ := ih p hp hpsize
      rw [hchain]
      refine ⟨?_, ?_, ?_, ?_⟩
      · refine List.forall_mem_cons.2 ⟨Nat.le_refl id, fun x hx => ?_⟩
        exact Nat.le_trans (hle x hx) (Nat.le_of_lt hp)
      · refine List.nodup_cons.2 ⟨fun hmem => ?_, hnodup⟩
        exact Nat.not_lt.2 (hle id hmem) hp
      · rw [List.getLast?_cons_of_ne_nil (by simp [chain]), hlast]
      · rw [chain] at hlinked ⊢
        exact .cons_cons houter hlinked

/-- Every name is looked up in the one registry. -/
theorem Rooted.hostFunction?_eq (h : m.Rooted registry) (hid : id < m.scopes.size)
    (name : String) : m.hostFunction? id name = registry.get? name := by
  induction id using Nat.strongRecOn with
  | ind id ih =>
    rcases Nat.eq_zero_or_pos id with rfl | hpos
    · have hregistry : m.registry? 0 = some registry := by rw [h.registry 0 hid, if_pos rfl]
      rw [hostFunction?, h.chain_zero, List.findSome?_singleton, hregistry, Option.bind_some]
    · obtain ⟨p, hp, hpsize, -, hchain⟩ := h.chain_cons hpos hid
      have hregistry : m.registry? id = none := by
        rw [h.registry id hid, if_neg (Nat.ne_of_gt hpos)]
      rw [hostFunction?, hchain, List.findSome?_cons, hregistry, Option.bind_none]
      exact ih p hp hpsize

/-! ## Scopes in use -/

/-- The scopes that are in use in a state of the machine, in the course of rounds that began with
`m₀`: those that tasks were given, those that closures were made in, and the scopes around them. -/
inductive InUse (m₀ : Machine ω) (rounds : List Round) (m : Machine ω) : ScopeId → Prop where
  | globals : InUse m₀ rounds m m.globals
  | given {t : Task ω} : m₀.Carries rounds t → t.machine.Before m → InUse m₀ rounds m t.env
  | captured {c : Closure} : m₀.Live rounds m c → InUse m₀ rounds m c.captured
  | around {id id' : ScopeId} : InUse m₀ rounds m id → id' ∈ m.outer id → InUse m₀ rounds m id'

/-- What makes host functions come first when names are called in a scope. -/
structure HostsPrevail (registry : Registry ω) (m : Machine ω) (env : ScopeId) : Prop where
  /-- Each scope on the way out was opened in the next one. -/
  linked : (m.chain env).IsChain fun child parent => m.outer child = m.chain parent
  /-- No scope is met twice. -/
  acyclic : (m.chain env).Nodup
  /-- The way out ends in the global scope. -/
  rooted : (m.chain env).getLast? = some m.globals ∧ m.outer m.globals = []
  host : ∀ name, m.hostFunction? env name = registry.get? name
  /-- A call of a name that is registered calls what is registered, whatever the name is bound
  to. -/
  dispatch : ∀ name f args, registry.get? name = some f →
    eval (.call name args) env m =
      (Eval.prepareHost m.entry f args env >>= fun p => Eval.callHost f p.1 p.2) m.counted

theorem Rooted.hostsPrevail (h : m.Rooted registry) (henv : env < m.scopes.size) :
    m.HostsPrevail registry env := by
  obtain ⟨-, hnodup, hlast, hlinked⟩ := h.chain_spec henv
  refine ⟨hlinked, hnodup, ?_, h.hostFunction?_eq henv, fun name f args hf => ?_⟩
  · rw [h.globals]
    exact ⟨hlast, h.root.2⟩
  · exact Eval.evalNode_call_host ((h.hostFunction?_eq henv name).trans hf)

/-- Scopes in use are there. -/
theorem InUse.lt_size {π : Provenance ω} {rounds : List Round}
    (hregistry : registry.ReturnsArguments) (hm : m.Tended registry π)
    (hready : ∀ t, m₀.Carries rounds t → t.Ready registry π) (h : InUse m₀ rounds m id) :
    id < m.scopes.size := by
  induction h with
  | globals => exact hm.rooted.globals_lt_size
  | given ht hbefore => exact hbefore.lt_size (hready _ ht).env
  | captured hc => exact (hc.vouched hregistry hm hready).1
  | @around id id' _ hmem hid =>
    have hchain : id' ∈ m.chain id := List.mem_cons_of_mem _ hmem
    exact Nat.lt_of_le_of_lt ((hm.rooted.chain_spec hid).1 id' hchain) hid

/-- Whatever programs a machine is given, whether they succeed or fail, and at any time: the global
scope is still the one it was and the only one with a registry, and from all scopes in use host
functions come first. -/
theorem host_functions_prevail (hregistry : registry.ReturnsArguments) (world : ω)
    (rounds : List Round) (hm : (new registry world).Passes rounds m) :
    m.globals = (new registry world).globals ∧
      (∀ id r, m.registry? id = some r ↔ id = m.globals ∧ r = registry) ∧
      ∀ env, InUse (new registry world) rounds m env → m.HostsPrevail registry env := by
  have hnew := tended_new registry (.any ω) world
  have htended := hnew.passes hregistry (fun _ _ _ => trivial) hm
  have hready : ∀ t, (new registry world).Carries rounds t → t.Ready registry (.any ω) :=
    fun t ht => hnew.carries hregistry (fun _ _ _ => trivial) ht
  refine ⟨htended.rooted.globals, fun id r => ⟨fun hr => ?_, ?_⟩, fun env henv => ?_⟩
  · rw [htended.rooted.globals]
    exact htended.rooted.registry_eq hr
  · rintro ⟨rfl, rfl⟩
    rw [htended.rooted.registry _ htended.rooted.globals_lt_size, if_pos htended.rooted.globals]
  · exact htended.rooted.hostsPrevail (henv.lt_size hregistry htended hready)

end Machine

/-- A round that calls a function with a parameter `+`. -/
def Round.shadowing : Round := ⟨"(define f (lambda (+) (+ 1 2)))\n(f 7)", .unlimited⟩

/-- In the body of the function `+` is bound to `7`, and still it is the host function. -/
theorem plus_prevails_over_parameter :
    let m₀ := Machine.new Library.registry ()
    ∃ t, m₀.Carries [.shadowing] t ∧ t.machine.lookup t.env "+" = some (.int 7) ∧
      t.machine.hostFunction? t.env "+" = Library.registry.get? "+" := by
  intro m₀
  let body : Call := ⟨"+", [.number ⟨"1", 1⟩, .number ⟨"2", 2⟩]⟩
  let c : Closure := ⟨0, ["+"], body, 0⟩
  let first : Task Unit := ⟨.define "f" (.lambda ["+"] body.name body.args), 0, m₀⟩
  let second : Task Unit := ⟨.call "f" [.number ⟨"7", 7⟩], 0, first.final⟩
  have hparse : parse Round.shadowing.source = .ok (.list [first.node, second.node]) := by rfl
  have hsecond : m₀.Evaluates [.shadowing] (.list [first.node, second.node]) second :=
    .now hparse (.next (v := .unit) (m := first.final) (by rfl) (by rfl) .first)
  obtain ⟨t, ht, hbound⟩ : ∃ t, second.Body t ∧ t.machine.lookup t.env "+" = some (.int 7) :=
    ⟨_, .enter (c := c) rfl rfl rfl rfl (by decide), rfl⟩
  have hcarries : m₀.Carries [.shadowing] t := ⟨_, second, hsecond, .single (.inr ht)⟩
  obtain ⟨-, -, hprevail⟩ := Machine.host_functions_prevail Library.registry_returnsArguments ()
    [.shadowing] (.start hcarries)
  exact ⟨t, hcarries, hbound, (hprevail t.env (.given hcarries (.refl _))).host "+"⟩

end HostLisp
