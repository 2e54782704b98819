import HostLisp.Library
import HostLisp.Proofs.Termination

/-!
# The boundary to the host

Programs have no types, host functions do.  The boundary between them is crossed twice in a call:
arguments go to the host and a value comes back.  Both times the signature decides what may pass,
and here it is shown that nothing else does, for any registry, any program and any state of the
machine, and in all that is evaluated on the way.

The arguments are expressions, so between the check of their number and the call of the host any
amount of evaluation takes place, with calls of other host functions and of closures in it.  None of
this matters for the argument: `Eval.prepareHost` ends in values of which each was bound to its own
slot, and that is all the host gets.
-/

namespace HostLisp

variable {ω : Type}

/-! ## Calls that get as far as the host -/

/-- In the task a host function is asked, with values for the arguments of the call; `m'` is the
machine by then. -/
inductive Task.Invokes : Task ω → HostFunction ω → List Node → List Value → Machine ω → Prop where
  | call {name args env f shape values} {m m' : Machine ω} :
      m.hostFunction? env name = some f →
      Eval.prepareHost m.entry f args env m.counted = .ok (shape, values) m' →
      Invokes ⟨.call name args, env, m⟩ f args values m'

/-- The rest of such a task is the host's answer, as the return list reads it. -/
theorem Task.Invokes.result_eq {t : Task ω} {f : HostFunction ω} {args : List Node}
    {values : List Value} {m' : Machine ω} (h : t.Invokes f args values m') :
    ∃ shape, f.signature.Returns shape ∧ t.result = Eval.callHost f shape values m' := by
  cases h with
  | @call name args env f shape values m m' hf hprepare =>
    refine ⟨shape, (Eval.prepareHost_prepared hprepare).shape, ?_⟩
    change Eval.evalNode m.entry (.call name args) env m = _
    rw [Eval.evalNode_call_host hf, Eval.bind_of_ok hprepare]

/-- A call that is dispatched to the host and succeeds has asked it. -/
theorem Task.invokes_of_result {name : String} {args : List Node} {env : ScopeId} {m : Machine ω}
    {f : HostFunction ω} (hf : m.hostFunction? env name = some f) {v : Value} {m' : Machine ω}
    (hv : (⟨.call name args, env, m⟩ : Task ω).result = .ok v m') :
    ∃ values m₁, (⟨.call name args, env, m⟩ : Task ω).Invokes f args values m₁ := by
  change Eval.evalNode m.entry (.call name args) env m = _ at hv
  rw [Eval.evalNode_call_host hf] at hv
  obtain ⟨⟨shape, values⟩, m₁, hprepare, -⟩ := Eval.bind_eq_ok hv
  exact ⟨values, m₁, .call hf hprepare⟩

/-! ## What goes in -/

/-- What holds of a host function and the values it is asked with. -/
structure HostFunction.Guarded (f : HostFunction ω) (args : List Node) (values : List Value) :
    Prop where
  /-- The return list is one of four. -/
  returns : f.signature.returns = [] ∨ (∃ k, k ≠ .error ∧ f.signature.returns = [k]) ∨
    f.signature.returns = [.error] ∨ ∃ k, k ≠ .error ∧ f.signature.returns = [k, .error]
  arity : f.signature.checkArity f.name values.length = .ok ()
  /-- There is a value for each argument. -/
  length : values.length = args.length
  /-- Every value has a slot of its own, which admits it; and a number literal in a slot for an
  unsigned integer is passed as exactly its value. -/
  slots : ∀ i v, values[i]? = some v → ∃ k, f.signature.param? i = some k ∧
    k.admits v.kind = true ∧ ∀ literal, args[i]? = some (.number literal) → k = .uint →
      ∃ u, v = .uint u ∧ (u.toNat : Int) = literal.value.toInt

theorem Task.Invokes.guarded {t : Task ω} {f : HostFunction ω} {args : List Node}
    {values : List Value} {m' : Machine ω} (h : t.Invokes f args values m') :
    f.Guarded args values := by
  cases h with
  | @call name args env f shape values m m' hf hprepare =>
    have hprepared := Eval.prepareHost_prepared hprepare
    have hlength : values.length = args.length :=
      (Eval.evalHostArgs_takes (Eval.prepareHost_eq_ok hprepare).2.2).1
    refine ⟨?_, Signature.checkArity_eq_ok.2 hprepared.fits.arity, hlength, ?_⟩
    · cases hprepared.shape with
      | nothing hr => exact .inl hr
      | value k hk hr => exact .inr (.inl ⟨k, hk, hr⟩)
      | failure hr => exact .inr (.inr (.inl hr))
      | either k hk hr => exact .inr (.inr (.inr ⟨k, hk, hr⟩))
    · intro i v hv
      have hi : i < args.length := hlength ▸ (List.getElem?_eq_some_iff.1 hv).1
      obtain ⟨k, hk, htakes⟩ :=
        hprepared.takes i args[i] v (List.getElem?_eq_getElem hi) hv
      refine ⟨k, hk, htakes.admits, fun literal harg hslot => htakes.literal literal ?_ hslot⟩
      rw [List.getElem?_eq_getElem hi] at harg
      exact Option.some.inj harg

/-! ## What comes back -/

/-- What holds of a value that a host function's call comes to. -/
structure HostFunction.Declares (f : HostFunction ω) (v : Value) : Prop where
  /-- Without a declared value it is unit. -/
  unit : f.signature.returns = [] ∨ f.signature.returns = [.error] → v = .unit
  /-- With a declared value it is of that kind. -/
  kind : ∀ k, k ≠ .error → f.signature.returns = [k] ∨ f.signature.returns = [k, .error] →
    k.admits v.kind = true

/-- A value that the declared kind admits is as declared. -/
theorem HostFunction.Declares.of_admits {f : HostFunction ω} {k : Kind} {v : Value}
    (hk : k ≠ .error) (hr : f.signature.returns = [k] ∨ f.signature.returns = [k, .error])
    (hadmits : k.admits v.kind = true) : f.Declares v where
  unit hunit := by
    rcases hr with hr | hr
    · simp [hr, hk] at hunit
    · simp [hr] at hunit
  kind k' _ hk' := by
    rw [Signature.kind_unique hr hk']
    exact hadmits

theorem Eval.callHost_declares {f : HostFunction ω} {shape : ReturnShape} {values : List Value}
    {v : Value} {m m' : Machine ω} (hshape : f.signature.Returns shape)
    (h : Eval.callHost f shape values m = .ok v m') : f.Declares v := by
  obtain ⟨result, m₁, -, h⟩ := Eval.bind_eq_ok h
  have hresult : Eval.hostResult f.name shape result = .ok v := by
    cases hr : Eval.hostResult f.name shape result with
    | ok v' =>
      rw [hr] at h
      rw [(Eval.pure_eq_ok h).1]
    | error e =>
      rw [hr] at h
      cases h
  unfold Eval.hostResult at hresult
  split at hresult
  case h_1 => split at hresult <;> cases hresult
  case h_2 value =>
    cases hshape with
    | nothing hr | failure hr =>
      cases hresult
      exact ⟨fun _ => rfl, fun k hk hk' => by simp [hr, hk.symm] at hk'⟩
    | value k hk hr =>
      simp only at hresult
      split at hresult
      case isTrue hadmits =>
        cases hresult
        exact .of_admits hk (.inl hr) hadmits
      case isFalse => cases hresult
    | either k hk hr =>
      simp only at hresult
      split at hresult
      case isTrue hadmits =>
        cases hresult
        exact .of_admits hk (.inr hr) hadmits
      case isFalse => cases hresult

/-! ## Both ways -/

/-- All through an evaluation the signatures hold at the boundary: whenever a host function is asked
it is guarded, and whenever a call dispatched to it succeeds the value is as declared. -/
theorem host_boundary_respects_signatures (node : Node) (env : ScopeId) (m : Machine ω) :
    (∀ t f args values m', (⟨node, env, m⟩ : Task ω).Reaches t → t.Invokes f args values m' →
      f.Guarded args values ∧
        ∃ shape, f.signature.Returns shape ∧ t.result = Eval.callHost f shape values m') ∧
    (∀ t name args f v m', (⟨node, env, m⟩ : Task ω).Reaches t → t.node = .call name args →
      t.machine.hostFunction? t.env name = some f → t.result = .ok v m' → f.Declares v) := by
  refine ⟨fun t f args values m' _ h => ⟨h.guarded, h.result_eq⟩, ?_⟩
  rintro ⟨_, env', m₁⟩ name args f v m' - rfl hf hv
  obtain ⟨values, m₂, hinvokes⟩ := Task.invokes_of_result hf hv
  obtain ⟨shape, hshape, hcall⟩ := hinvokes.result_eq
  exact Eval.callHost_declares hshape (hcall ▸ hv)

/-- The program `(repeat (concat "a" "b") 2)` on a new machine. -/
def Task.repeating : Task Unit where
  node := .call "repeat" [.call "concat" [.str "a", .str "b"], .number ⟨"2", 2⟩]
  env := 0
  machine := .new Library.registry ()

/-- The literal of `Task.repeating` reaches the host as an unsigned integer, beside a text that a
host function has made before. -/
theorem repeating_respects_signatures : ∃ f m',
    Task.repeating.Invokes f [.call "concat" [.str "a", .str "b"], .number ⟨"2", 2⟩]
      [.str "ab", .uint 2] m' ∧
    f.Guarded [.call "concat" [.str "a", .str "b"], .number ⟨"2", 2⟩] [.str "ab", .uint 2] ∧
    (∃ m'', Task.repeating.result = .ok (.str "abab") m'') ∧ f.Declares (.str "abab") := by
  have hinvokes : ∃ f m', Task.repeating.machine.hostFunction? 0 "repeat" = some f ∧
      Task.repeating.Invokes f [.call "concat" [.str "a", .str "b"], .number ⟨"2", 2⟩]
        [.str "ab", .uint 2] m' := ⟨_, _, rfl, .call rfl rfl⟩
  obtain ⟨f, m', hf, hinvokes⟩ := hinvokes
  have hresult : ∃ m'', Task.repeating.result = .ok (.str "abab") m'' := ⟨_, rfl⟩
  obtain ⟨m'', hresult⟩ := hresult
  have h := host_boundary_respects_signatures Task.repeating.node 0 Task.repeating.machine
  exact ⟨f, m', hinvokes, (h.1 _ f _ _ m' .refl hinvokes).1, ⟨m'', hresult⟩,
    h.2 Task.repeating _ _ f _ m'' .refl rfl hf hresult⟩

end HostLisp
