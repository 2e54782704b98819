import HostLisp.Proofs.Reachability
import HostLisp.Proofs.ScopeGrowth

/-!
# Names around the evaluation of their values

Both forms that give a name a value look at the name twice, before and after the value is evaluated.
In between anything can happen: the value may define names, and may call closures that define and
assign names wherever they can see them.

For `set` this never matters.  A name that is bound stays bound, on the same chain, so the second
look finds it too, and writes one binding (`Machine.Writes`).  For `define` it matters in one case
only: the scope can have got the name from a definition that stands in the text of the value itself.
-/

namespace HostLisp

variable {ω : Type}

namespace Machine

variable {m m' : Machine ω} {env id : ScopeId} {name x : String} {v : Value}

/-! ## Writing one binding -/

/-- From `m` to `m'` one binding is written: the scope `id` binds `name` to `v`, and everything else
is as it was. -/
structure Writes (id : ScopeId) (name : String) (v : Value) (m m' : Machine ω) : Prop where
  value : (m'.bindings id).get? name = some v
  others : ∀ id' x, ¬ (id' = id ∧ x = name) → (m'.bindings id').get? x = (m.bindings id').get? x
  outer : ∀ id', m'.outer id' = m.outer id'
  registry : ∀ id', m'.registry? id' = m.registry? id'
  size : m'.scopes.size = m.scopes.size
  rest : { m' with scopes := m.scopes } = m

theorem writes_updateBindings {f : Bindings → Bindings} (hid : id < m.scopes.size)
    (hvalue : (f (m.bindings id)).get? name = some v)
    (hothers : ∀ x, x ≠ name → (f (m.bindings id)).get? x = (m.bindings id).get? x) :
    Writes id name v m (m.updateBindings id f) where
  value := by rwa [bindings_updateBindings, if_pos ⟨rfl, hid⟩]
  others id' x hne := by
    rw [bindings_updateBindings]
    split
    case isTrue heq =>
      obtain ⟨rfl, -⟩ := heq
      exact hothers x fun hx => hne ⟨rfl, hx⟩
    case isFalse => rfl
  outer _ := outer_updateBindings f
  registry _ := registry?_updateBindings f
  size := size_updateBindings f
  rest := rfl

theorem writes_define (hsize : env < m.scopes.size) (h : m.define env name v = .ok m') :
    Writes env name v m m' := by
  obtain ⟨-, rfl⟩ := define_eq_ok h
  refine writes_updateBindings hsize List.lookup_cons_self fun x hx => ?_
  rw [Bindings.get?, List.lookup_cons, beq_eq_false_iff_ne.2 hx]
  rfl

theorem get?_of_isLocal (h : m.isLocal id x = true) : ∃ v, (m.bindings id).get? x = some v :=
  Option.isSome_iff_exists.1 h

theorem writes_replace (h : m.isLocal id name = true) :
    Writes id name v m (m.updateBindings id (·.replace name v)) := by
  obtain ⟨old, hold⟩ := get?_of_isLocal h
  refine writes_updateBindings (lt_size_of_isLocal h) ?_ fun x hx => ?_
  · rw [Bindings.get?_replace, if_pos rfl, hold]
    rfl
  · rw [Bindings.get?_replace, if_neg hx]

/-! ## Reading after a write -/

theorem holder?_spec (h : m.holder? env name = some id) :
    id ∈ m.chain env ∧ m.isLocal id name = true :=
  ⟨List.mem_of_find?_eq_some h, List.find?_some (p := fun id => m.isLocal id name) h⟩

/-- A name has the value that its innermost holder gives it. -/
theorem lookup_eq_holder (m : Machine ω) (env : ScopeId) (name : String) :
    m.lookup env name = (m.holder? env name).bind fun id => (m.bindings id).get? name := by
  unfold lookup holder?
  induction m.chain env with
  | nil => rfl
  | cons id rest ih =>
    rw [List.findSome?_cons, List.find?_cons]
    cases hget : (m.bindings id).get? name with
    | none =>
      have hlocal : m.isLocal id name = false := by rw [isLocal, Bindings.contains, hget]; rfl
      rw [hlocal]
      exact ih
    | some w =>
      have hlocal : m.isLocal id name = true := by rw [isLocal, Bindings.contains, hget]; rfl
      rw [hlocal]
      exact hget.symm

theorem isSome_lookup_iff : (m.lookup env name).isSome = (m.holder? env name).isSome := by
  rw [lookup_eq_holder]
  cases h : m.holder? env name with
  | none => rfl
  | some id => exact (holder?_spec h).2

section Writes

variable (h : Writes id name v m m')
include h

theorem Writes.chain_eq (env : ScopeId) : m'.chain env = m.chain env := by
  rw [chain, chain, h.outer]

theorem Writes.lookup_self : m'.lookup id name = some v := by
  rw [lookup, chain, List.findSome?_cons, h.value]

/-- Other names are found where they were, with the values that they had. -/
theorem Writes.lookup_of_ne (hx : x ≠ name) (env : ScopeId) : m'.lookup env x = m.lookup env x := by
  unfold lookup
  rw [h.chain_eq]
  exact findSome?_congr fun id' _ => h.others id' x fun heq => hx heq.2

/-- A write to a name that the scope has already binds no name anew. -/
theorem Writes.holder?_eq (hlocal : m.isLocal id name = true) (env : ScopeId) :
    m'.holder? env name = m.holder? env name := by
  have hsame : ∀ id', m'.isLocal id' name = m.isLocal id' name := by
    intro id'
    by_cases hid : id' = id
    · rw [hid, hlocal, isLocal, Bindings.contains, h.value]
      rfl
    · rw [isLocal, isLocal, Bindings.contains, Bindings.contains,
        h.others id' name fun heq => hid heq.1]
  unfold holder?
  rw [h.chain_eq]
  simp only [hsame]

end Writes

/-! ## Names after an evaluation -/

section Grows

variable {may : ScopeId → String → Prop} (h : Grows may m m')
include h

theorem Grows.isLocal (hx : m.isLocal id x = true) : m'.isLocal id x = true := by
  obtain ⟨added, hnames, -⟩ := h.names id (lt_size_of_isLocal hx)
  rw [isLocal_iff_mem] at hx ⊢
  rw [hnames]
  exact List.mem_append_right added hx

theorem Grows.may_of_isLocal (hid : id < m.scopes.size) (hx : m.isLocal id x = false)
    (hx' : m'.isLocal id x = true) : may id x := by
  obtain ⟨added, hnames, hadded⟩ := h.names id hid
  rw [Bool.eq_false_iff, Ne, isLocal_iff_mem] at hx
  rw [isLocal_iff_mem, hnames] at hx'
  exact hadded x ((List.mem_append.1 hx').resolve_right hx)

/-- A name that is bound on a chain stays bound there, if not in the same scope. -/
theorem Grows.isSome_holder? (hbound : (m.holder? env name).isSome) :
    (m'.holder? env name).isSome := by
  obtain ⟨id, hid⟩ := Option.isSome_iff_exists.1 hbound
  obtain ⟨hmem, hlocal⟩ := holder?_spec hid
  have henv : env < m.scopes.size := by
    -- A scope that does not exist is alone on its chain, and binds nothing.
    refine Nat.lt_of_not_le fun hsize => ?_
    rw [chain, outer_of_size_le hsize, List.mem_singleton] at hmem
    exact Nat.not_le.2 (lt_size_of_isLocal hlocal) (hmem ▸ hsize)
  unfold holder?
  rw [List.find?_isSome]
  refine ⟨id, ?_, h.isLocal hlocal⟩
  rwa [chain, h.outer env henv]

end Grows

end Machine

/-! ## The two forms -/

section Forms

variable {name : String} {value : Node} {env : ScopeId} {m m' : Machine ω} {v : Value}

/-- What is known of a machine after the evaluation of an expression. -/
theorem grows_of_eval (hvalue : eval value env m = .ok v m') :
    m.Grows (fun id x => id = env ∧ x ∈ value.defined) m' := by
  have hgrows := eval_grows value env m
  rwa [Eval.after, hvalue] at hgrows

theorem eval_assign (hbound : (m.lookup env name).isSome) (hvalue : eval value env m = .ok v m') :
    eval (.assign name value) env m = Eval.assign env name v m' := by
  have hvalue' : Eval.evalNode (Eval.enter (maxCallDepth - m.depth)) value env m = .ok v m' :=
    hvalue
  have hnone : ¬ (m.lookup env name).isNone = true := by
    rw [Bool.not_eq_true, Option.isNone_eq_false_iff]
    exact hbound
  change Eval.evalNode (Eval.enter (maxCallDepth - m.depth)) _ env m = _
  rw [Eval.evalNode, Eval.get_bind, if_neg hnone, Eval.bind_of_ok hvalue']

theorem eval_define (hlocal : m.isLocal env name = false) (hvalue : eval value env m = .ok v m') :
    eval (.define name value) env m = Eval.define env name v m' := by
  have hvalue' : Eval.evalNode (Eval.enter (maxCallDepth - m.depth)) value env m = .ok v m' :=
    hvalue
  change Eval.evalNode (Eval.enter (maxCallDepth - m.depth)) _ env m = _
  rw [Eval.evalNode, Eval.get_bind, if_neg (Bool.eq_false_iff.1 hlocal), Eval.bind_of_ok hvalue']

/-- A name that is bound when an assignment starts can be assigned to when its value is there. -/
theorem eval_assign_writes (hbound : (m.lookup env name).isSome)
    (hvalue : eval value env m = .ok v m') :
    ∃ holder m'', m'.holder? env name = some holder ∧ m'.isLocal holder name = true ∧
      eval (.assign name value) env m = .ok .unit m'' ∧ m'.Writes holder name v m'' := by
  rw [Machine.isSome_lookup_iff] at hbound
  obtain ⟨holder, hholder⟩ :=
    Option.isSome_iff_exists.1 ((grows_of_eval hvalue).isSome_holder? hbound)
  have hlocal := (Machine.holder?_spec hholder).2
  refine ⟨holder, _, hholder, hlocal, ?_, Machine.writes_replace hlocal⟩
  rw [← Machine.isSome_lookup_iff] at hbound
  rw [eval_assign hbound hvalue, Eval.assign, Machine.assign, hholder]

end Forms

/-- `set` and `define` hold what their first look at the name promises, whatever the evaluation of
the value does.  An assignment to a name that is bound succeeds, and the one binding that it changes
is that of the name in its innermost holder; what is found elsewhere is as after the value.  A
definition of a name that is not local succeeds and binds it in its own scope, unless the value has
bound it there; that takes a definition of the name in the text of the value, outside the bodies of
`lambda`s, and then the definition is refused and leaves things as the value left them. -/
theorem first_look_at_name_holds (name : String) (value : Node) (env : ScopeId) (m m' : Machine ω)
    (v : Value) (hvalue : eval value env m = .ok v m') :
    ((m.lookup env name).isSome →
      ∃ holder m'', eval (.assign name value) env m = .ok .unit m'' ∧
        m''.lookup env name = some v ∧ m'.holder? env name = some holder ∧
        m'.Writes holder name v m'' ∧
        (∀ id x, x ≠ name → m''.lookup id x = m'.lookup id x) ∧
        (∀ id, m'.holder? id name ≠ some holder → m''.lookup id name = m'.lookup id name)) ∧
    (env < m.scopes.size → m.isLocal env name = false →
      (m'.isLocal env name = false →
        ∃ m'', eval (.define name value) env m = .ok .unit m'' ∧ m''.lookup env name = some v ∧
          m'.Writes env name v m'') ∧
      (m'.isLocal env name = true →
        name ∈ value.defined ∧
          eval (.define name value) env m = .error (.bind (.alreadyDefined name)) m')) := by
  have hgrows := grows_of_eval hvalue
  refine ⟨fun hbound => ?_, fun hsize hlocal => ⟨fun hlocal' => ?_, fun hlocal' => ?_⟩⟩
  · obtain ⟨holder, m'', hholder, hlocal, heval, hwrites⟩ := eval_assign_writes hbound hvalue
    refine ⟨holder, m'', heval, ?_, hholder, hwrites, fun id x hx => hwrites.lookup_of_ne hx id,
      fun id hne => ?_⟩
    · rw [Machine.lookup_eq_holder, hwrites.holder?_eq hlocal, hholder]
      exact hwrites.value
    · rw [Machine.lookup_eq_holder, Machine.lookup_eq_holder m', hwrites.holder?_eq hlocal]
      refine Option.bind_congr fun id' hid' => ?_
      exact hwrites.others id' name fun heq => hne (heq.1 ▸ hid')
  · have hdefine : m'.define env name v = .ok (m'.updateBindings env ((name, v) :: ·)) :=
      if_neg (Bool.eq_false_iff.1 hlocal')
    have hwrites := Machine.writes_define (Nat.lt_of_lt_of_le hsize hgrows.size) hdefine
    refine ⟨_, ?_, hwrites.lookup_self, hwrites⟩
    rw [eval_define hlocal hvalue, Eval.define, hdefine]
  · refine ⟨(hgrows.may_of_isLocal hsize hlocal hlocal').2, ?_⟩
    rw [eval_define hlocal hvalue, Eval.define, Machine.define, if_pos hlocal']

/-- A machine with two scopes, the inner one empty and the outer one with a name. -/
def Machine.shadowing : Machine Unit where
  globals := 0
  scopes := #[⟨[("x", .int 0)], some Library.registry, []⟩, ⟨[], none, [0]⟩]
  calls := 0
  depth := 0
  closures := 0
  world := ()

/-- The expression `(begin (define x 1) 2)`. -/
def Node.intruding : Node := .begin [.define "x" (.number ⟨"1", 1⟩), .number ⟨"2", 2⟩]

/-- In the inner scope the expression gets in the way of both forms.  The assignment goes to the
name that the expression defines, though only the outer one was bound when it started, and the
definition is refused. -/
theorem shadowing_keeps_outer_name :
    (∃ m, eval (.assign "x" Node.intruding) 1 Machine.shadowing = .ok .unit m ∧
      m.lookup 1 "x" = some (.int 2) ∧ m.lookup 0 "x" = some (.int 0)) ∧
    ∃ m, eval (.define "x" Node.intruding) 1 Machine.shadowing =
        .error (.bind (.alreadyDefined "x")) m ∧ m.lookup 1 "x" = some (.int 1) := by
  have hvalue : eval Node.intruding 1 Machine.shadowing = .ok (.int 2)
      (Machine.shadowing.updateBindings 1 (("x", .int 1) :: ·)) := rfl
  obtain ⟨hassign, hdefine⟩ := first_look_at_name_holds "x" _ 1 _ _ _ hvalue
  constructor
  · obtain ⟨holder, m, heval, hlookup, hholder, -, -, hothers⟩ := hassign rfl
    obtain rfl : 1 = holder := Option.some.inj hholder
    exact ⟨m, heval, hlookup, hothers 0 (by decide)⟩
  · exact ⟨_, ((hdefine (by decide) rfl).2 rfl).2, rfl⟩

end HostLisp
