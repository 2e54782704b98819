import HostLisp.Proofs.Evaluation
import HostLisp.Proofs.Machine

/-!
# Host functions that keep their promises

A signature is a promise of the host: on arguments that fit it, the function fails only if it
declares an error, and the value it returns has the declared kind.  A host function that `Conforms`
keeps the promise.  Evaluation asks host functions with fitting arguments only, so it never reports
that a promise was broken.

The other fault of evaluation is a whole program in the place of an expression.  No source parses to
a tree with one, but a tree also comes to the evaluator inside a closure, and the host may return
closures.  What is needed of the host is that it makes none with a program inside: closures it was
given, now or earlier, it may return.  That is `HostFunction.Keeps`, which also says what the host
remembers in its own state.

Both are shown together, for any property of nodes that goes down into the parts of a node
(`Hereditary`).  For the property that all nodes have, the closures that the host returns do not
matter; for the property of having no program inside, no fault is left.
-/

namespace HostLisp

variable {ω : Type}

/-! ## Promises -/

/-- On arguments that fit the signature, the function does what the signature declares. -/
structure HostFunction.Conforms (f : HostFunction ω) : Prop where
  fails : ∀ args world cause, f.signature.Fits args → (f.call args world).1 = .error cause →
    Kind.error ∈ f.signature.returns
  returns : ∀ args world v, f.signature.Fits args → (f.call args world).1 = .ok v →
    ∀ k, k ≠ .error → f.signature.returns = [k] ∨ f.signature.returns = [k, .error] →
      k.admits v.kind = true

/-- All functions of the registry do what their signatures declare. -/
def Registry.Conforms (r : Registry ω) : Prop := ∀ name f, r.get? name = some f → f.Conforms

/-- A property of nodes that goes down to what a node evaluates and to the bodies it closes over. -/
structure Hereditary (P : Node → Prop) : Prop where
  operand : ∀ {node}, P node → ∀ part ∈ node.operands, P part
  body : ∀ {params name args}, P (.lambda params name args) → P (.call name args)

/-- If the value is a closure, its body has the property. -/
def Value.Within (P : Node → Prop) (v : Value) : Prop := ∀ c, v = .closure c → P c.body.node

/-- The function returns no closures that lack the property, unless it is given some.  What the host
remembers is in `good`. -/
def HostFunction.Keeps (f : HostFunction ω) (P : Node → Prop) (good : ω → Prop) : Prop :=
  ∀ args world, f.signature.Fits args → (∀ v ∈ args, v.Within P) → good world →
    good (f.call args world).2 ∧ ∀ v, (f.call args world).1 = .ok v → v.Within P

def Registry.Keeps (r : Registry ω) (P : Node → Prop) (good : ω → Prop) : Prop :=
  ∀ name f, r.get? name = some f → f.Keeps P good

/-! ## Evaluation without faults -/

/-- Everything that can be evaluated has the property, all host functions keep their promises, and
no error is a fault, save for a program in the place of an expression. -/
def Discipline.faultless (P : Node → Prop) (good : ω → Prop) : Discipline ω where
  machine m :=
    (∀ id r, m.registry? id = some r → r.Conforms ∧ r.Keeps P good) ∧
    (∀ id b, b ∈ m.bindings id → b.2.Within P) ∧ good m.world
  scope _ := True
  node := P
  value := Value.Within P
  host f := f.Conforms ∧ f.Keeps P good
  error e := ∀ fault, e = .fatal fault → fault = .nestedList ∧ ∃ children, P (.list children)

section Faultless

variable {P : Node → Prop} {good : ω → Prop}

theorem Value.within_of_kind {v : Value} (h : v.kind ≠ .closure) : v.Within P := by
  rintro c rfl
  exact absurd rfl h

/-- The answer of a function that keeps its promises is never reported as a fault. -/
theorem Eval.hostResult_not_fatal {f : HostFunction ω} {args : List Node} {shape : ReturnShape}
    {values : List Value} (hf : f.Conforms) (hp : Prepared f args shape values) (world : ω)
    {e : Error} (h : hostResult f.name shape (f.call values world).1 = .error e) :
    ∀ fault, e ≠ .fatal fault := by
  unfold hostResult at h
  split at h
  case h_1 cause hcause =>
    have hfallible := hp.shape.fallible_iff.2 (hf.fails values world cause hp.fits hcause)
    rw [if_pos hfallible] at h
    cases h
    exact fun fault hfault => by cases hfault
  case h_2 v hv =>
    have hreturns := hf.returns values world v hp.fits hv
    cases hp.shape with
    | nothing hr | failure hr => cases h
    | value k hk hr => simp only [hreturns k hk (.inl hr), if_true] at h; cases h
    | either k hk hr => simp only [hreturns k hk (.inr hr), if_true] at h; cases h

theorem Eval.hostResult_within {function : String} {shape : ReturnShape}
    {result : Except String Value} {v : Value} (hresult : ∀ v, result = .ok v → v.Within P)
    (h : hostResult function shape result = .ok v) : v.Within P := by
  rcases hostResult_eq_ok h with rfl | hv
  · exact Value.within_of_kind (by simp [Value.kind])
  · exact hresult v hv

theorem Discipline.faultless_kept (hP : Hereditary P) :
    (faultless P good : Discipline ω).Kept where
  operand := hP.operand
  bindError e fault h := by cases h
  nestedList h fault heq := by cases heq; exact ⟨rfl, _, h⟩
  constant h := Value.within_of_kind fun hk => by simp [hk] at h
  lookup hm _ h := Machine.Holds.lookup hm.2.1 h
  define {m m' _ _ _ _} _ hm _ hv h := by
    have hworld : m'.world = m.world := by
      obtain ⟨-, rfl⟩ := Machine.define_eq_ok h
      rfl
    exact ⟨Machine.Offers.define hm.1 h, Machine.Holds.define hm.2.1 hv h, hworld ▸ hm.2.2⟩
  assign {m m' _ _ _ _} _ hm _ hv h := by
    have hworld : m'.world = m.world := by
      obtain ⟨id, -, rfl⟩ := Machine.assign_eq_ok h
      rfl
    exact ⟨Machine.Offers.assign hm.1 h, Machine.Holds.assign hm.2.1 hv h, hworld ▸ hm.2.2⟩
  lambda hn hm _ := ⟨fun c hc => by cases hc; exact hP.body hn, hm⟩
  count hm := hm
  hostFunction hm _ h := by
    obtain ⟨id, -, r, hr, hf⟩ := Machine.exists_of_hostFunction? h
    exact ⟨(hm.1 id r hr).1 _ _ hf, (hm.1 id r hr).2 _ _ hf⟩
  callHost {f args shape values} hf hp hargs m hm := by
    have hargs' : ∀ v ∈ values, v.Within P := by
      intro v hv
      rcases hargs v hv with h | ⟨u, rfl⟩
      · exact h
      · exact Value.within_of_kind (by simp [Value.kind])
    obtain ⟨hgood, hwithin⟩ := hf.2 values m.world hp.fits hargs' hm.2.2
    unfold Eval.Ends
    rw [Eval.callHost_eq]
    cases hresult : Eval.hostResult f.name shape (f.call values m.world).1 with
    | ok v => exact ⟨Eval.hostResult_within hwithin hresult, hm.1, hm.2.1, hgood⟩
    | error e =>
      have hfatal := Eval.hostResult_not_fatal hf.1 hp m.world hresult
      exact ⟨fun fault heq => absurd heq (hfatal fault), hm.1, hm.2.1, hgood⟩

theorem Discipline.faultless_opens : (faultless P good : Discipline ω).Opens where
  depth _ hm := hm
  openChild _ hb hm :=
    ⟨⟨Machine.Offers.openChild hm.1, Machine.Holds.openChild hm.2.1 hb, hm.2.2⟩, trivial⟩
  body hc := hc _ rfl

end Faultless

end HostLisp
