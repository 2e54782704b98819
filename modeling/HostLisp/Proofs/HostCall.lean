import HostLisp.Eval

/-!
# Arguments of host calls

Between the words of a program and a host function stand three checks: the number of arguments, the
shape of the return list, and the kind of each argument.  This file says what the checks leave once
they have all passed, without looking at how the arguments were evaluated.

* `Signature.Fits` is what a host function may rely on: as many arguments as its signature allows,
  and for each a slot that admits it.
* `Kind.Takes` is what one slot makes of one argument.  It is finer than admission, because a number
  literal in a slot for an unsigned integer is never evaluated but read.
* `Eval.prepareHost` is the part of a host call before the host is asked, and `prepareHost_prepared`
  says that it ends in arguments that fit.
-/

namespace HostLisp

/-! ## Arguments that fit a signature -/

/-- The arguments that a signature allows. -/
structure Signature.Fits (s : Signature) (values : List Value) : Prop where
  /-- There are as many as the signature allows. -/
  arity : s.arity.fits values.length = true
  /-- Every argument has a slot, and the slot admits it. -/
  slots : ∀ i v, values[i]? = some v → ∃ k, s.param? i = some k ∧ k.admits v.kind = true

/-- Below an arity that fits every index has a slot. -/
theorem Signature.param?_of_fits {s : Signature} {count i : Nat} (hs : s.arity.fits count = true)
    (hi : i < count) : ∃ k, s.param? i = some k := by
  unfold Signature.arity at hs
  unfold Signature.param?
  cases hv : s.variadic with
  | some k =>
    cases hp : s.params[i]? with
    | some k' => exact ⟨k', by simp⟩
    | none => exact ⟨k, by simp⟩
  | none =>
    have hlen : count = s.params.length := by simpa [hv, Arity.fits] using hs
    have hip : i < s.params.length := hlen ▸ hi
    exact ⟨s.params[i], by simp [List.getElem?_eq_getElem hip]⟩

theorem Signature.checkArity_eq_ok {s : Signature} {function : String} {count : Nat} :
    s.checkArity function count = .ok () ↔ s.arity.fits count = true := by
  unfold Signature.checkArity
  split <;> simp_all

/-! ## Return lists -/

/-- The four return lists that a program can use, with what they mean. -/
inductive Signature.Returns (s : Signature) : ReturnShape → Prop where
  | nothing : s.returns = [] → s.Returns ⟨none, false⟩
  | value (k : Kind) : k ≠ .error → s.returns = [k] → s.Returns ⟨some k, false⟩
  | failure : s.returns = [.error] → s.Returns ⟨none, true⟩
  | either (k : Kind) : k ≠ .error → s.returns = [k, .error] → s.Returns ⟨some k, true⟩

theorem Signature.returns_of_returnShape {s : Signature} {function : String} {shape : ReturnShape}
    (h : s.returnShape function = .ok shape) : s.Returns shape := by
  unfold Signature.returnShape at h
  split at h
  case h_1 hr => cases h; exact .nothing hr
  case h_2 hr => cases h; exact .failure hr
  case h_3 k hk hr => cases h; exact .value k (fun he => hk he) hr
  case h_4 k hr =>
    split at h
    · cases h
    · cases h; exact .either k ‹_› hr
  case h_5 => cases h

/-- A call may fail exactly if its return list says so. -/
theorem Signature.Returns.fallible_iff {s : Signature} {shape : ReturnShape} (h : s.Returns shape) :
    shape.fallible = true ↔ Kind.error ∈ s.returns := by
  cases h with
  | nothing hr => simp [hr]
  | value k hk hr => simp [hr, hk.symm]
  | failure hr => simp [hr]
  | either k hk hr => simp [hr]

/-- A return list declares at most one kind of value. -/
theorem Signature.kind_unique {s : Signature} {k k' : Kind}
    (h : s.returns = [k] ∨ s.returns = [k, .error])
    (h' : s.returns = [k'] ∨ s.returns = [k', .error]) : k' = k := by
  have hhead : ∀ {j : Kind}, s.returns = [j] ∨ s.returns = [j, .error] →
      s.returns.head? = some j := by
    intro j hj
    rcases hj with hj | hj
    · rw [hj, List.head?_cons]
    · rw [hj, List.head?_cons]
  exact Option.some.inj ((hhead h').symm.trans (hhead h))

/-! ## One argument -/

/-- What a slot makes of an argument: it admits the value, and a number literal in a slot for an
unsigned integer is that integer. -/
structure Kind.Takes (slot : Kind) (arg : Node) (value : Value) : Prop where
  admits : slot.admits value.kind = true
  literal : ∀ literal, arg = .number literal → slot = .uint →
    ∃ u, value = .uint u ∧ (u.toNat : Int) = literal.value.toInt

theorem nonNegative?_eq_some {value : Int64} {u : UInt64} (h : nonNegative? value = some u) :
    (u.toNat : Int) = value.toInt := by
  unfold nonNegative? at h
  split at h
  case isTrue hnonneg =>
    cases h
    have hle : (0 : Int) ≤ value.toInt := by simpa [Int64.le_iff_toInt_le] using hnonneg
    have hbits : value.toUInt64.toBitVec.toInt = value.toInt := rfl
    rw [BitVec.toInt_eq_toNat_cond] at hbits
    have hlt := value.toUInt64.toNat_lt
    simp only [UInt64.toNat_toBitVec] at hbits
    split at hbits <;> omega
  case isFalse => cases h

theorem bindUnsigned_takes {function : String} {literal : NumberLiteral} {value : Value}
    (h : bindUnsigned function literal = .ok value) :
    Kind.uint.Takes (.number literal) value := by
  unfold bindUnsigned at h
  split at h
  case h_1 u hu =>
    cases h
    refine ⟨rfl, fun literal' heq _ => ?_⟩
    cases heq
    exact ⟨u, rfl, nonNegative?_eq_some hu⟩
  case h_2 => cases h

theorem bindArgument_eq_ok {function : String} {slot : Kind} {value value' : Value}
    (h : bindArgument function slot value = .ok value') :
    value' = value ∧ slot.admits value.kind = true := by
  unfold bindArgument at h
  split at h
  · cases h; exact ⟨rfl, ‹_›⟩
  · cases h

namespace Eval

variable {ω : Type}

/-! ## Running single steps -/

theorem check_eq_ok {α : Type} {x : Except BindError α} {a : α} {m m' : Machine ω}
    (h : check x m = .ok a m') : x = .ok a ∧ m' = m := by
  cases x with
  | ok b => cases h; exact ⟨rfl, rfl⟩
  | error e => cases h

/-- A sequence succeeds only if both parts do. -/
theorem bind_eq_ok {α β : Type} {x : Eval ω α} {k : α → Eval ω β} {b : β} {m m' : Machine ω}
    (h : (x >>= k) m = .ok b m') : ∃ a m₁, x m = .ok a m₁ ∧ k a m₁ = .ok b m' := by
  simp only [bind, EStateM.bind] at h
  cases hx : x m with
  | ok a m₁ => exact ⟨a, m₁, rfl, by simpa only [hx] using h⟩
  | error e m₁ => simp only [hx] at h; cases h

theorem bind_of_ok {α β : Type} {x : Eval ω α} {a : α} {m m' : Machine ω} (h : x m = .ok a m')
    (k : α → Eval ω β) : (x >>= k) m = k a m' := by
  simp only [bind, EStateM.bind, h]

theorem pure_eq_ok {α : Type} {a b : α} {m m' : Machine ω}
    (h : (pure a : Eval ω α) m = .ok b m') : a = b ∧ m = m' := by
  cases h; exact ⟨rfl, rfl⟩

/-! ## All arguments -/

theorem hostArg_takes {function : String} {slot : Kind} {arg : Node} {x : Eval ω Value}
    {value : Value} {m m' : Machine ω} (h : hostArg function slot arg x m = .ok value m') :
    slot.Takes arg value := by
  unfold hostArg at h
  split at h
  case h_1 literal => exact bindUnsigned_takes (check_eq_ok h).1
  case h_2 hcase =>
    obtain ⟨v, m₁, -, hb⟩ := bind_eq_ok h
    obtain ⟨rfl, hadmits⟩ := bindArgument_eq_ok (check_eq_ok hb).1
    exact ⟨hadmits, fun literal hl hs => absurd hs (hcase literal hl)⟩

/-- Evaluated arguments stand in the order of the nodes, and each is what its slot makes of its
node.  The slots are counted from `index`, which is where the induction on the nodes moves. -/
theorem evalHostArgs_takes {enter : Enter ω} {f : HostFunction ω} {args : List Node}
    {env : ScopeId} {index : Nat} {values : List Value} {m m' : Machine ω}
    (h : evalHostArgs enter f index args env m = .ok values m') :
    values.length = args.length ∧ ∀ i arg v, args[i]? = some arg → values[i]? = some v →
      ((f.signature.param? (index + i)).getD .any).Takes arg v := by
  induction args generalizing index values m m' with
  | nil =>
    rw [evalHostArgs] at h
    obtain ⟨rfl, -⟩ := pure_eq_ok h
    exact ⟨rfl, fun i arg v harg => by simp at harg⟩
  | cons arg rest ih =>
    rw [evalHostArgs] at h
    obtain ⟨value, m₁, hvalue, h⟩ := bind_eq_ok h
    obtain ⟨others, m₂, hothers, h⟩ := bind_eq_ok h
    obtain ⟨rfl, -⟩ := pure_eq_ok h
    obtain ⟨hlen, htakes⟩ := ih hothers
    refine ⟨by simp [hlen], fun i arg' v harg hv => ?_⟩
    cases i with
    | zero =>
      simp only [List.getElem?_cons_zero, Option.some.injEq] at harg hv
      subst harg hv
      exact hostArg_takes hvalue
    | succ i =>
      simp only [List.getElem?_cons_succ] at harg hv
      have := htakes i arg' v harg hv
      rwa [Nat.add_right_comm, Nat.add_assoc] at this

/-- The host's turn: its answer decides the result, and its state is the one it leaves. -/
theorem callHost_eq (f : HostFunction ω) (shape : ReturnShape) (values : List Value)
    (m : Machine ω) :
    callHost f shape values m =
      match hostResult f.name shape (f.call values m.world).1 with
      | .ok v => .ok v { m with world := (f.call values m.world).2 }
      | .error e => .error e { m with world := (f.call values m.world).2 } := by
  change (match hostResult f.name shape (f.call values m.world).1 with
    | .ok value => pure value
    | .error e => throw e : Eval ω Value) _ = _
  cases hostResult f.name shape (f.call values m.world).1 <;> rfl

/-- A call comes to the value that the host returns, or to unit if none is declared. -/
theorem hostResult_eq_ok {function : String} {shape : ReturnShape} {result : Except String Value}
    {v : Value} (h : hostResult function shape result = .ok v) : v = .unit ∨ result = .ok v := by
  unfold hostResult at h
  split at h
  case h_1 => split at h <;> cases h
  case h_2 value =>
    split at h
    case h_1 => cases h; exact .inl rfl
    case h_2 =>
      split at h
      · cases h; exact .inr rfl
      · cases h

/-- A host call up to the point where the host is asked: the checks and the arguments. -/
def prepareHost (enter : Enter ω) (f : HostFunction ω) (args : List Node) (env : ScopeId) :
    Eval ω (ReturnShape × List Value) := do
  check (f.signature.checkArity f.name args.length)
  let shape ← check (f.signature.returnShape f.name)
  let values ← evalHostArgs enter f 0 args env
  pure (shape, values)

/-- What `prepareHost` has established when it ends. -/
structure Prepared (f : HostFunction ω) (args : List Node) (shape : ReturnShape)
    (values : List Value) : Prop where
  shape : f.signature.Returns shape
  fits : f.signature.Fits values
  takes : ∀ i arg v, args[i]? = some arg → values[i]? = some v →
    ∃ k, f.signature.param? i = some k ∧ k.Takes arg v

theorem prepareHost_eq_ok {enter : Enter ω} {f : HostFunction ω} {args : List Node}
    {env : ScopeId} {shape : ReturnShape} {values : List Value} {m m' : Machine ω}
    (h : prepareHost enter f args env m = .ok (shape, values) m') :
    f.signature.checkArity f.name args.length = .ok () ∧
      f.signature.returnShape f.name = .ok shape ∧
      evalHostArgs enter f 0 args env m = .ok values m' := by
  obtain ⟨⟨⟩, m₁, harity, h⟩ := bind_eq_ok h
  obtain ⟨shape', m₂, hshape, h⟩ := bind_eq_ok h
  obtain ⟨values', m₃, hvalues, h⟩ := bind_eq_ok h
  obtain ⟨heq, rfl⟩ := pure_eq_ok h
  cases heq
  obtain ⟨hcount, rfl⟩ := check_eq_ok harity
  obtain ⟨hreturns, rfl⟩ := check_eq_ok hshape
  exact ⟨hcount, hreturns, hvalues⟩

theorem prepareHost_prepared {enter : Enter ω} {f : HostFunction ω} {args : List Node}
    {env : ScopeId} {shape : ReturnShape} {values : List Value} {m m' : Machine ω}
    (h : prepareHost enter f args env m = .ok (shape, values) m') :
    Prepared f args shape values := by
  obtain ⟨harity, hshape, hvalues⟩ := prepareHost_eq_ok h
  obtain ⟨hlen, htakes⟩ := evalHostArgs_takes hvalues
  have hfits := Signature.checkArity_eq_ok.1 harity
  -- The arity decides that the slot is there; without it an argument would go to `any`.
  have hslots : ∀ i arg v, args[i]? = some arg → values[i]? = some v →
      ∃ k, f.signature.param? i = some k ∧ k.Takes arg v := by
    intro i arg v harg hv
    obtain ⟨k, hk⟩ := Signature.param?_of_fits hfits (List.getElem?_eq_some_iff.1 harg).1
    have := htakes i arg v harg hv
    rw [Nat.zero_add, hk] at this
    exact ⟨k, hk, this⟩
  refine ⟨Signature.returns_of_returnShape hshape, ⟨hlen ▸ hfits, fun i v hv => ?_⟩, hslots⟩
  have hi : i < args.length := hlen ▸ (List.getElem?_eq_some_iff.1 hv).1
  obtain ⟨k, hk, ht⟩ := hslots i args[i] v (List.getElem?_eq_getElem hi) hv
  exact ⟨k, hk, ht.admits⟩

end Eval

end HostLisp
