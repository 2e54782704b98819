import HostLisp.Proofs.Contents
import HostLisp.Proofs.HostBoundary

/-!
# Unsigned integers stay with the host

Programs calculate with signed integers.  A host function may ask for an unsigned one, and gets it
from a number literal that stands in its place among the arguments; the literal is not evaluated but
read.  So an unsigned integer goes straight from the text of the program to the host.

If host functions return none either, there is no other place where one could be.  All values that
are computed or bound are of other kinds (`Contents.signed`), and this decides which arguments a
slot for an unsigned integer takes: what an expression evaluates to is never admitted, so what is
taken was a literal (`HostFunction.TakesLiterals`).
-/

namespace HostLisp

variable {ω : Type}

/-! ## Host functions that return no unsigned integers -/

/-- On arguments that fit, the function returns no unsigned integer. -/
def HostFunction.ReturnsNoUnsigned (f : HostFunction ω) : Prop :=
  ∀ args world u, f.signature.Fits args → (f.call args world).1 ≠ .ok (.uint u)

def Registry.ReturnsNoUnsigned (r : Registry ω) : Prop :=
  ∀ name f, r.get? name = some f → f.ReturnsNoUnsigned

/-- The library functions return what they declare, and none declares an unsigned integer. -/
theorem Library.registry_returnsNoUnsigned :
    (Library.registry : Registry ω).ReturnsNoUnsigned := by
  intro name f h args world u _ hu
  obtain ⟨e, he, rfl⟩ := Library.exists_entry_of_get? h
  obtain ⟨k, -, -, hreturns, hyields⟩ := (Library.entries_sound e he).yields
  have hk : Kind.uint = k := hyields args _ (Library.Entry.toHost_eq_ok hu)
  have hnone : ∀ e ∈ Library.entries, Kind.uint ∉ e.returns := by decide
  refine hnone e he ?_
  rcases hreturns with hreturns | hreturns <;> simp [hreturns, hk]

/-! ## Values of programs -/

/-- Machines without unsigned integers. -/
def Contents.signed : Contents ω where
  node _ := True
  value v := v.kind ≠ .uint
  host := HostFunction.ReturnsNoUnsigned

theorem Contents.signed_closed : (signed : Contents ω).Closed where
  operand _ _ _ := trivial
  constant h hk := by simp [hk] at h
  lambda _ hk := by cases hk
  body _ := trivial
  answer {f values world v} hf hfits _ hv hk := by
    cases v with
    | uint u => exact hf values world u hfits hv
    | _ => cases hk

/-! ## Arguments of host functions -/

/-- In the task the first arguments of a call have been bound to the slots of a host function. -/
inductive Task.Binds : Task ω → HostFunction ω → List Node → List Value → Prop where
  | call {name args rest env f shape values} {m m' : Machine ω} :
      m.hostFunction? env name = some f →
      f.signature.checkArity f.name (args ++ rest).length = .ok () →
      f.signature.returnShape f.name = .ok shape →
      Eval.evalHostArgs m.entry f 0 args env m.counted = .ok values m' →
      Binds ⟨.call name (args ++ rest), env, m⟩ f args values

theorem Task.Invokes.binds {t : Task ω} {f : HostFunction ω} {args : List Node}
    {values : List Value} {m' : Machine ω} (h : t.Invokes f args values m') :
    t.Binds f args values := by
  cases h with
  | @call name args env f shape values m m' hf hprepare =>
    obtain ⟨harity, hshape, hvalues⟩ := Eval.prepareHost_eq_ok hprepare
    rw [← List.append_nil args] at harity
    have hbinds : Task.Binds ⟨.call name (args ++ []), env, m⟩ f args values :=
      .call hf harity hshape hvalues
    rwa [List.append_nil] at hbinds

/-- Every argument was supplied to its own slot. -/
theorem Discipline.Kept.supplied {D : Discipline ω} (h : D.Kept) {enter : Enter ω}
    (he : D.Enters enter) {f : HostFunction ω} {args : List Node} {env : ScopeId}
    (hn : ∀ n ∈ args, D.node n) (hs : D.scope env) {m m' : Machine ω} (hm : D.machine m)
    {values : List Value} (hok : Eval.evalHostArgs enter f 0 args env m = .ok values m') :
    ∀ i v, values[i]? = some v →
      ∃ arg, args[i]? = some arg ∧ D.Supplied ((f.signature.param? i).getD .any) arg v := by
  have hends : Eval.Ends (Eval.evalHostArgs enter f 0 args env) m
      (fun values m' => D.machine m' ∧ ∀ i v, values[i]? = some v →
        ∃ arg, args[i]? = some arg ∧ D.Supplied ((f.signature.param? i).getD .any) arg v)
      fun _ _ => True := by
    refine Eval.ends_evalHostArgs ⟨hm, fun i v hv => by simp at hv⟩ ?_
    rintro done arg rest values m₁ rfl hdone ⟨hm₁, hvalues⟩
    have hlength : values.length = done.length := (Eval.evalHostArgs_takes hdone).1
    have harg : D.Upholds (Eval.hostArg f.name _ arg (Eval.evalNode enter arg env))
        (D.Supplied ((f.signature.param? done.length).getD .any) arg) :=
      h.hostArg (h.evalNode he arg env (hn arg (by simp)) hs)
    refine (harg m₁ hm₁).imp (fun v m₂ hv => ⟨hv.2, fun i w hw => ?_⟩) fun _ _ _ => trivial
    by_cases hi : i < values.length
    · rw [List.getElem?_append_left hi] at hw
      exact hvalues i w hw
    · rw [List.getElem?_append_right (Nat.le_of_not_lt hi), List.getElem?_singleton] at hw
      obtain ⟨hlast, rfl⟩ : i - values.length = 0 ∧ v = w := by simpa using hw
      obtain rfl : i = done.length := by omega
      exact ⟨arg, by simp, hv.1⟩
  exact (hends.of_ok hok).2

/-- What a host function was given: unsigned integers only where its signature asks for them and
the program has a number literal, which has this value; and for a slot that asks for one nothing but
a number literal. -/
structure HostFunction.TakesLiterals (f : HostFunction ω) (args : List Node)
    (values : List Value) : Prop where
  unsigned : ∀ i u, values[i]? = some (.uint u) → f.signature.param? i = some .uint ∧
    ∃ literal, args[i]? = some (.number literal) ∧ (u.toNat : Int) = literal.value.toInt
  literal : ∀ i arg, args[i]? = some arg → f.signature.param? i = some .uint →
    ∃ literal, arg = .number literal

theorem Task.Binds.takesLiterals {t : Task ω} {f : HostFunction ω} {args : List Node}
    {values : List Value} (h : t.Binds f args values)
    (ht : (Contents.signed : Contents ω).discipline.Allows t) : f.TakesLiterals args values := by
  have hkept := Contents.signed_closed (ω := ω) |>.kept
  have hopens := Contents.signed_closed (ω := ω) |>.opens
  cases h with
  | @call name args rest env f shape values m m' hf harity hshape hok =>
    obtain ⟨hlength, htakes⟩ := Eval.evalHostArgs_takes hok
    have hsupplied := hkept.supplied (hkept.enter hopens _) (fun _ _ => trivial) trivial
      (hkept.count ht.machine) hok
    have hunsigned : ∀ i u, values[i]? = some (.uint u) → f.signature.param? i = some .uint ∧
        ∃ literal, args[i]? = some (.number literal) ∧ (u.toNat : Int) = literal.value.toInt := by
      intro i u hu
      obtain ⟨arg, harg, hvalue | ⟨hslot, literal, rfl, u', hu', hnat⟩⟩ := hsupplied i _ hu
      · exact absurd rfl hvalue
      · cases hu'
        rcases Option.getD_eq_iff.1 hslot with hparam | ⟨-, hany⟩
        · exact ⟨hparam, literal, harg, hnat⟩
        · cases hany
    refine ⟨hunsigned, fun i arg harg hslot => ?_⟩
    -- The slot has taken a value, which can only be an unsigned integer.
    have hi : i < values.length := hlength ▸ (List.getElem?_eq_some_iff.1 harg).1
    have hvalue : values[i]? = some values[i] := List.getElem?_eq_getElem hi
    have hadmits := (htakes i arg _ harg hvalue).admits
    rw [Nat.zero_add, hslot] at hadmits
    obtain ⟨u, hu⟩ := Kind.admits_uint hadmits
    obtain ⟨-, literal, hliteral, -⟩ := hunsigned i u (hvalue.trans (congrArg some hu))
    exact ⟨literal, Option.some.inj (harg.symm.trans hliteral)⟩

/-- With host functions that return no unsigned integers, such as those of the library, programs
never see one.  In all rounds no expression evaluates to one, at top level or below, and none is
bound in any scope; they occur only among the arguments that host functions are given, where the
program has a number literal and the signature asks for an unsigned integer.  No other expression is
taken there, not even if the call comes to nothing later. -/
theorem unsigned_integers_stay_with_host (registry : Registry ω)
    (hregistry : registry.ReturnsNoUnsigned) (world : ω) (rounds : List Round) :
    (∀ t v m, (Machine.new registry world).Carries rounds t → t.result = .ok v m →
      v.kind ≠ .uint) ∧
    (∀ m, (Machine.new registry world).Passes rounds m → m.Holds fun v => v.kind ≠ .uint) ∧
    (∀ t f args values, (Machine.new registry world).Carries rounds t →
      t.Binds f args values → f.TakesLiterals args values) ∧
    (∀ t f args values m, (Machine.new registry world).Carries rounds t →
      t.Invokes f args values m → f.TakesLiterals args values) ∧
    (Library.registry : Registry ω).ReturnsNoUnsigned := by
  have hclosed := Contents.signed_closed (ω := ω)
  have hsustains := hclosed.sustains (Discipline.moves_before _)
  have hnew := Contents.machine_new (C := .signed) hregistry world
  have hadmits : (Contents.signed : Contents ω).discipline.Admits rounds :=
    fun _ _ _ _ _ _ => trivial
  have hallows : ∀ t, (Machine.new registry world).Carries rounds t →
      (Contents.signed : Contents ω).discipline.Allows t :=
    fun t ht => (ht.course hsustains hadmits hnew).1
  refine ⟨fun t v m ht hv => ?_, fun m hm => ?_, fun t f args values ht h => ?_,
    fun t f args values m ht h => ?_, Library.registry_returnsNoUnsigned⟩
  · exact (((hallows t ht).ends hclosed.kept hclosed.opens).of_ok hv).1
  · exact (hm.course hsustains hadmits hnew).1.1
  · exact h.takesLiterals (hallows t ht)
  · exact h.binds.takesLiterals (hallows t ht)

/-- A round in which `repeat` is called with a literal and with a variable. -/
def Round.repeating : Round :=
  ⟨"(define n 3)\n(repeat \"ab\" 3)\n(repeat \"ab\" n)", .unlimited⟩

/-- The literal is read as an unsigned integer.  The definition has bound `n` to a signed one, so the
variable does not do. -/
theorem repeating_takes_literal :
    let m₀ := Machine.new Library.registry ()
    let args : List Node := [.str "ab", .number ⟨"3", 3⟩]
    (∃ t f m, m₀.Carries [.repeating] t ∧ t.Invokes f args [.str "ab", .uint 3] m ∧
      f.TakesLiterals args [.str "ab", .uint 3]) ∧
    (∀ t f values, m₀.Carries [.repeating] t → t.Binds f [.str "ab", .var "n"] values →
      f.signature.param? 1 ≠ some .uint) ∧
    ((m₀.afterRounds [.repeating]).bindings 0).length = 1 ∧
    (m₀.afterRounds [.repeating]).Holds fun v => v.kind ≠ .uint := by
  intro m₀ args
  let first : Task Unit := ⟨.define "n" (.number ⟨"3", 3⟩), 0, m₀⟩
  let second : Task Unit := ⟨.call "repeat" args, 0, first.final⟩
  have hparse : parse Round.repeating.source =
      .ok (.list [first.node, second.node, .call "repeat" [.str "ab", .var "n"]]) := by rfl
  have hcarries : m₀.Carries [.repeating] second :=
    ⟨_, second, .now hparse (.next (v := .unit) (m := first.final) (by rfl) (by rfl) .first), .refl⟩
  obtain ⟨f, m, hinvokes⟩ : ∃ f m, second.Invokes f args [.str "ab", .uint 3] m :=
    ⟨_, _, .call rfl rfl⟩
  obtain ⟨-, hbound, hbinds, htakes, -⟩ := unsigned_integers_stay_with_host Library.registry
    Library.registry_returnsNoUnsigned () [.repeating]
  refine ⟨⟨second, f, m, hcarries, hinvokes, htakes second f _ _ m hcarries hinvokes⟩, ?_,
    by decide +kernel, hbound _ (.between (List.prefix_refl _))⟩
  intro t g values ht h hslot
  obtain ⟨literal, hliteral⟩ := (hbinds t g _ values ht h).literal 1 (.var "n") rfl hslot
  cases hliteral

end HostLisp
