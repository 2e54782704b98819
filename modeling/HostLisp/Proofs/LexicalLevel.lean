import HostLisp.Proofs.Session
import HostLisp.Proofs.Grammar

/-!
# Scopes follow the text

However deep calls go, the scopes around a scope are as many as there are `lambda`s around the text
that is evaluated in it, and the global one.  So the limit on how deep programs are nested is also
one on how far a name has to be looked for.

The text of a node does not tell where it stands, since the same text can stand at several places.
So a task gets its place by where it comes from (`Machine.Located`).  An operand stands in the form
of the task that started it.  The body of a closure does not: it stands in the `lambda` that made
the closure, which is known from the task that did.  As places are a `Provenance`, every task and
every closure has one, and the number of scopes follows by induction on how the place was found
(`Machine.Located.spec`).

In a program there are never more `lambda`s around a place than levels
(`Node.Encloses.lambdas_le`).
-/

namespace HostLisp

variable {ω : Type}

/-! ## Places in a program -/

namespace Node

/-- Whether the form is a `lambda`. -/
def isLambda : Node → Bool
  | .lambda .. => true
  | _ => false

/-- How many of the forms are `lambda`s. -/
def lambdas (around : List Node) : Nat := around.countP isLambda

/-- The node stands in the program with the forms around it, the innermost first.  What a `lambda`
has inside is its body, and what the body has inside are the arguments of that call. -/
inductive Encloses (program : Node) : List Node → Node → Prop where
  | toplevel {node : Node} : node ∈ program.toplevel → Encloses program [] node
  | operand {form node : Node} {around : List Node} :
    Encloses program around form → node ∈ form.operands → Encloses program (form :: around) node
  | body {params : List String} {name : String} {args around : List Node} :
    Encloses program around (.lambda params name args) →
      Encloses program (.lambda params name args :: around) (.call name args)

theorem isLambda_of_mem_operands {form node : Node} (h : node ∈ form.operands) :
    form.isLambda = false := by
  cases isOperand_of_mem h <;> rfl

theorem lambdas_cons_of_mem_operands {form node : Node} (h : node ∈ form.operands)
    (around : List Node) : lambdas (form :: around) = lambdas around := by
  rw [lambdas, List.countP_cons, isLambda_of_mem_operands h]
  rfl

theorem lambdas_cons_lambda (params : List String) (name : String) (args around : List Node) :
    lambdas (.lambda params name args :: around) = lambdas around + 1 :=
  List.countP_cons_of_pos rfl

theorem nesting_lt_of_mem_operands {form node : Node} (h : node ∈ form.operands) :
    node.nesting < form.nesting := by
  have hmem : ∀ nodes : List Node, node ∈ nodes → node.nesting < deepest nodes + 1 :=
    fun nodes hnode => Nat.lt_succ_of_le (deepest_le_iff.1 (Nat.le_refl _) node hnode)
  cases isOperand_of_mem h with
  | define | assign => exact Nat.lt_succ_self _
  | test | conseq | alt =>
    simp only [nesting]
    omega
  | item hbody => exact hmem _ hbody
  | argument hargs => exact hmem _ hargs

/-- In a program there is a level for every `lambda`, and only the body of the innermost one need
not have another. -/
theorem Encloses.lambdas_le {program node : Node} {around : List Node} {limit : Nat}
    (hprogram : program.IsProgram limit) (h : program.Encloses around node) :
    lambdas around ≤ limit ∧ lambdas around + node.nesting ≤ limit + 1 ∧
      ((∀ name args, node ≠ .call name args) → lambdas around + node.nesting ≤ limit) := by
  induction h with
  | @toplevel node hnode =>
    have hnesting : node.nesting ≤ limit := by
      cases program with
      | list children => exact (hprogram node hnode).2
      | _ => exact hprogram.elim
    have hnone : lambdas [] = 0 := rfl
    rw [hnone]
    omega
  | @operand form node around _ hnode ih =>
    have hnesting := nesting_lt_of_mem_operands hnode
    rw [lambdas_cons_of_mem_operands hnode]
    omega
  | @body params name args around _ ih =>
    have hlambda := ih.2.2 (by simp)
    simp only [nesting] at hlambda ⊢
    rw [lambdas_cons_lambda]
    refine ⟨by omega, by omega, fun hcall => ?_⟩
    exact absurd rfl (hcall name args)

end Node

/-! ## Places of tasks -/

theorem Exec.Evaluates.spec {nodes : List Node} {c : Console ω} {t : Task ω}
    (h : Exec.Evaluates nodes c t) : t.node ∈ nodes ∧ t.env = t.machine.globals := by
  induction h with
  | first => exact ⟨List.mem_cons_self, rfl⟩
  | next _ _ _ ih => exact ⟨List.mem_cons_of_mem _ ih.1, ih.2⟩

theorem Task.Makes.spec {t : Task ω} {c : Closure} (h : t.Makes c) :
    c.captured = t.env ∧ ∃ params, t.node = .lambda params c.body.name c.body.args := by
  cases h with
  | lambda => exact ⟨rfl, _, rfl⟩

/-- The body of the closure that is called is evaluated inside the scope that it was made in. -/
theorem Task.Body.spec_of_calls {t u : Task ω} {c : Closure} (h : t.Body u) (hc : t.Calls c)
    (hcaptured : c.captured < t.machine.scopes.size) :
    u.node = c.body.node ∧ u.machine.chain u.env = u.env :: u.machine.chain c.captured := by
  cases hc with
  | call _ hlookup =>
    cases h with
    | @enter _ _ _ c' bindings _ m' _ hlookup' _ hparams _ =>
      obtain rfl : c' = c := by simpa [hlookup] using hlookup'.symm
      refine ⟨rfl, congrArg (List.cons _) ?_⟩
      have hsize := (before_of_evalParams hparams).lt_size hcaptured
      have houter : (m'.openChild c'.captured bindings).2.outer m'.scopes.size
          = m'.chain c'.captured := by
        rw [Machine.openChild, Machine.outer_openScope, if_pos rfl]
      have hchain := (Machine.before_openChild m' c'.captured bindings).chain_eq hsize
      exact houter.trans hchain.symm

namespace Machine

variable {m₀ m : Machine ω} {rounds : List Round} {registry : Registry ω} {t u s : Task ω}
  {c : Closure} {program : Node} {around : List Node}

theorem Evaluates.spec (h : m₀.Evaluates rounds program t) :
    (∃ r ∈ rounds, parse r.source = .ok program) ∧ t.node ∈ program.toplevel ∧
      t.env = t.machine.globals := by
  induction h with
  | @now m r rest program t hparse ht => exact ⟨⟨r, List.mem_cons_self, hparse⟩, ht.spec⟩
  | later _ ih =>
    obtain ⟨⟨r, hr, hparse⟩, ht⟩ := ih
    exact ⟨⟨r, List.mem_cons_of_mem _ hr, hparse⟩, ht⟩

/-- The task evaluates what stands in the program with the forms around it.  An operand stands in
its form.  A body stands in the `lambda` that made the closure, wherever the call of it is. -/
inductive Located (m₀ : Machine ω) (rounds : List Round) : Task ω → Node → List Node → Prop where
  | expression {t : Task ω} {program : Node} :
    m₀.Evaluates rounds program t → Located m₀ rounds t program []
  | operand {t u : Task ω} {program : Node} {around : List Node} :
    Located m₀ rounds t program around → t.Operand u →
      Located m₀ rounds u program (t.node :: around)
  | body {t u s : Task ω} {c : Closure} {program program' : Node} {around around' : List Node} :
    Located m₀ rounds t program' around' → t.Calls c → t.Body u →
      Located m₀ rounds s program around → s.Makes c →
        Located m₀ rounds u program (s.node :: around)

/-- The closure was made by a task with a place. -/
def Placed (m₀ : Machine ω) (rounds : List Round) (c : Closure) : Prop :=
  ∃ s program around, m₀.Located rounds s program around ∧ s.Makes c

/-- What is known of tasks is their places. -/
def places (m₀ : Machine ω) (rounds : List Round) : Provenance ω where
  task t := ∃ program around, m₀.Located rounds t program around
  closure := m₀.Placed rounds
  operand := by
    rintro t u ⟨program, around, ht⟩ ho
    exact ⟨program, _, ht.operand ho⟩
  body := by
    rintro t u c ⟨program', around', ht⟩ hc ⟨s, program, around, hs, hmakes⟩ hb
    exact ⟨program, _, ht.body hc hb hs hmakes⟩
  made := by
    rintro t c ⟨program, around, ht⟩ hmakes
    exact ⟨t, program, around, ht, hmakes⟩

theorem Located.carries (h : m₀.Located rounds t program around) : m₀.Carries rounds t := by
  induction h with
  | expression ht => exact ⟨_, _, ht, .refl⟩
  | operand _ ho ih =>
    obtain ⟨program, s, hs, hreaches⟩ := ih
    exact ⟨program, s, hs, hreaches.tail (.inl ho)⟩
  | body _ _ hb _ _ ih =>
    obtain ⟨program, s, hs, hreaches⟩ := ih
    exact ⟨program, s, hs, hreaches.tail (.inr hb)⟩

section Rounds

variable {world : ω} (hregistry : registry.ReturnsArguments)
include hregistry

theorem ready_of_carries (h : (new registry world).Carries rounds t) :
    t.Ready registry ((new registry world).places rounds) :=
  (tended_new registry ((new registry world).places rounds) world).carries hregistry
    (fun program _ ht => ⟨program, [], .expression ht⟩) h

theorem tended_of_passes (h : (new registry world).Passes rounds m) :
    m.Tended registry ((new registry world).places rounds) :=
  (tended_new registry ((new registry world).places rounds) world).passes hregistry
    (fun program _ ht => ⟨program, [], .expression ht⟩) h

/-- The place is in one of the programs, and it takes as many scopes as there are `lambda`s around
it, besides the global one. -/
theorem Located.spec (h : (new registry world).Located rounds t program around) :
    (∃ r ∈ rounds, parse r.source = .ok program) ∧ program.Encloses around t.node ∧
      (t.machine.chain t.env).length = Node.lambdas around + 1 := by
  induction h with
  | @expression t program ht =>
    have hrooted := (ready_of_carries hregistry ⟨program, t, ht, .refl⟩).machine.rooted
    obtain ⟨hparse, hnode, henv⟩ := ht.spec
    refine ⟨hparse, .toplevel hnode, ?_⟩
    rw [henv, hrooted.globals, hrooted.chain_zero]
    rfl
  | @operand t u program around ht ho ih =>
    obtain ⟨hparse, hencloses, hlength⟩ := ih
    have henv := (ready_of_carries hregistry ht.carries).env
    refine ⟨hparse, hencloses.operand ho.spec.1, ?_⟩
    rw [ho.env_eq, ho.before.chain_eq henv, hlength,
      Node.lambdas_cons_of_mem_operands ho.spec.1]
  | @body t u s c program program' around around' ht hc hb hs hmakes _ ih =>
    obtain ⟨hparse, hencloses, hlength⟩ := ih
    have hu := (ht.body hc hb hs hmakes).carries
    have hcaptured : c.captured < t.machine.scopes.size := by
      cases hc with
      | call _ hlookup =>
        exact ((ready_of_carries hregistry ht.carries).machine.lookup hlookup c rfl).1
    obtain ⟨hnode, hchain⟩ := hb.spec_of_calls hc hcaptured
    obtain ⟨henv, params, hlambda⟩ := hmakes.spec
    -- The call may be rounds later than the `lambda`, but the scopes around are still the same.
    have hscope : u.machine.chain c.captured = s.machine.chain c.captured :=
      Passes.chain_eq (.start hu) (.start hs.carries) (hb.before.lt_size hcaptured)
        (henv ▸ (ready_of_carries hregistry hs.carries).env)
    refine ⟨hparse, ?_, ?_⟩
    · rw [hlambda] at hencloses ⊢
      rw [hnode]
      exact hencloses.body
    · rw [hchain, List.length_cons, hscope, henv, hlength, hlambda, Node.lambdas_cons_lambda]

theorem Located.length_captured (hm : (new registry world).Passes rounds m)
    (h : (new registry world).Located rounds t program around) (hc : t.Makes c)
    (hsize : c.captured < m.scopes.size) :
    (m.chain c.captured).length = Node.lambdas around + 1 := by
  obtain ⟨-, -, hlength⟩ := h.spec hregistry
  have henv := (ready_of_carries hregistry h.carries).env
  rw [hc.spec.1] at hsize ⊢
  rw [hm.chain_eq (.start h.carries) hsize henv, hlength]

/-- Every scope but the global one was opened for a body, and that has its place. -/
theorem Passes.length_chain_le (hm : (new registry world).Passes rounds m) (env : ScopeId) :
    (m.chain env).length ≤ Parse.maxNesting + 1 := by
  have htended := tended_of_passes hregistry hm
  rcases Nat.eq_zero_or_pos env with rfl | hpos
  · rw [htended.rooted.chain_zero]
    exact Nat.succ_le_succ (Nat.zero_le _)
  by_cases hsize : env < m.scopes.size
  · obtain ⟨u, ⟨program, around, hu⟩, rfl⟩ := htended.opened env hpos hsize
    obtain ⟨⟨r, -, hparse⟩, hencloses, hlength⟩ := hu.spec hregistry
    have henv := (ready_of_carries hregistry hu.carries).env
    rw [hm.chain_eq (.start hu.carries) hsize henv, hlength]
    exact Nat.succ_le_succ (hencloses.lambdas_le (parse_sound hparse)).1
  · have houter : m.outer env = [] := by
      rw [outer, Array.getElem?_eq_none (Nat.le_of_not_lt hsize)]
    rw [chain, houter]
    exact Nat.succ_le_succ (Nat.zero_le _)

end Rounds

/-- Whatever programs a machine is given, whether they succeed or fail: all that is evaluated has
its place in one of them, with one scope for each `lambda` around it and the global one.  A closure
keeps as many as its `lambda` has.  So there are never more than programs may have levels, and the
global one. -/
theorem scopes_follow_nesting (hregistry : registry.ReturnsArguments) (world : ω)
    (rounds : List Round) :
    (∀ t, (new registry world).Carries rounds t →
      ∃ program around, (new registry world).Located rounds t program around) ∧
    (∀ t program around, (new registry world).Located rounds t program around →
      (∃ r ∈ rounds, parse r.source = .ok program) ∧ program.Encloses around t.node ∧
        (t.machine.chain t.env).length = Node.lambdas around + 1) ∧
    ∀ m, (new registry world).Passes rounds m →
      (∀ c, (new registry world).Live rounds m c →
        (new registry world).Placed rounds c ∧
          ∀ s program around, (new registry world).Located rounds s program around → s.Makes c →
            (m.chain c.captured).length = Node.lambdas around + 1) ∧
      ∀ env, (m.chain env).length ≤ Parse.maxNesting + 1 := by
  refine ⟨fun t ht => (ready_of_carries hregistry ht).known, fun t program around ht =>
    ht.spec hregistry, fun m hm => ⟨fun c hc => ?_, hm.length_chain_le hregistry⟩⟩
  obtain ⟨hcaptured, hplaced⟩ := hc.vouched hregistry (tended_of_passes hregistry hm)
    fun t ht => ready_of_carries hregistry ht
  exact ⟨hplaced, fun s program around hs hmakes =>
    hs.length_captured hregistry hm hmakes hcaptured⟩

end Machine

/-- A function that calls itself without end. -/
def Node.endless : Node := .lambda ["n"] "f" [.var "n"]

/-- A round that defines the function and calls it. -/
def Round.recurring : Round := ⟨"(define f (lambda (n) (f n)))\n(f 1)", .unlimited⟩

/-- Of two calls of a function one inside the other, the inner one has no more scopes. -/
theorem recursion_takes_no_more_scopes :
    let m₀ := Machine.new Library.registry ()
    let around := [Node.endless, .define "f" .endless]
    ∃ program t u, m₀.Located [.recurring] t program around ∧
      t.Body u ∧ m₀.Located [.recurring] u program around ∧
      (t.machine.chain t.env).length = 2 ∧ (u.machine.chain u.env).length = 2 ∧
      ∀ env, ((m₀.afterRounds [.recurring]).chain env).length ≤ 2001 := by
  intro m₀ around
  obtain ⟨-, hlength, hbound⟩ :=
    Machine.scopes_follow_nesting Library.registry_returnsArguments () [.recurring]
  let c : Closure := ⟨0, ["n"], ⟨"f", [.var "n"]⟩, 0⟩
  let first : Task Unit := ⟨.define "f" .endless, 0, m₀⟩
  let second : Task Unit := ⟨.call "f" [.number ⟨"1", 1⟩], 0, first.final⟩
  let program : Node := .list [first.node, second.node]
  have hparse : parse Round.recurring.source = .ok program := by rfl
  have hfirst : m₀.Evaluates [.recurring] program first := .now hparse .first
  have hsecond : m₀.Evaluates [.recurring] program second :=
    .now hparse (.next (v := .unit) (m := first.final) (by rfl) (by rfl) .first)
  have hlambda : m₀.Located [.recurring] ⟨.endless, 0, m₀⟩ program [first.node] :=
    .operand (.expression hfirst) (.define rfl)
  have hmakes : (⟨.endless, 0, m₀⟩ : Task Unit).Makes c := .lambda
  obtain ⟨t, ht, hcalls, u, hu⟩ : ∃ t, second.Body t ∧ t.Calls c ∧ ∃ u, t.Body u :=
    ⟨_, .enter (c := c) rfl rfl rfl rfl (by decide), .call rfl rfl,
      _, .enter (c := c) rfl rfl rfl rfl (by decide)⟩
  have htPlace : m₀.Located [.recurring] t program around :=
    .body (.expression hsecond) (.call rfl rfl) ht hlambda hmakes
  have huPlace : m₀.Located [.recurring] u program around :=
    .body htPlace hcalls hu hlambda hmakes
  exact ⟨program, t, u, htPlace, hu, huPlace, (hlength _ _ _ htPlace).2.2,
    (hlength _ _ _ huPlace).2.2, (hbound _ (.between List.prefix_rfl)).2⟩

end HostLisp
