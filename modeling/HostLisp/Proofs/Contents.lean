import HostLisp.Proofs.Session

/-!
# What a machine contains

A program gets at values in few ways.  They are written in it, it makes closures, a host function
answers, or they were bound before.  A property that is not lost on any of these ways is one that
all values have, wherever they are bound and whatever they are computed from.

The property usually depends on others.  Whether a closure has it is decided by the node that it is
made from, and whether an answer has it by the host function.  So three properties go together
(`Contents`), and if they are `Closed` they hold throughout, in single evaluations and in sessions
(`Contents.Closed.sustains`).
-/

namespace HostLisp

variable {ω : Type}

/-- What is to hold of the nodes, the values and the host functions that a machine has to do
with. -/
structure Contents (ω : Type) where
  node : Node → Prop
  value : Value → Prop
  host : HostFunction ω → Prop

namespace Contents

variable {C : Contents ω}

/-- The discipline that asks for this of all that is bound and offered, and for nothing else. -/
def discipline (C : Contents ω) : Discipline ω where
  machine m := m.Holds C.value ∧ m.Offers fun r => ∀ name f, r.get? name = some f → C.host f
  scope _ := True
  node := C.node
  value := C.value
  host := C.host
  error _ := True

/-- An evaluation that starts with such contents comes upon no others. -/
structure Closed (C : Contents ω) : Prop where
  operand : ∀ {node}, C.node node → ∀ part ∈ node.operands, C.node part
  constant : ∀ {v : Value}, v.kind ∈ [Kind.unit, .bool, .int, .str] → C.value v
  lambda : ∀ {c : Closure}, C.node (.lambda c.params c.body.name c.body.args) →
    C.value (.closure c)
  body : ∀ {c : Closure}, C.value (.closure c) → C.node c.body.node
  answer : ∀ {f : HostFunction ω} {values world v}, C.host f → f.signature.Fits values →
    (∀ w ∈ values, C.discipline.Argument w) → (f.call values world).1 = .ok v → C.value v

theorem Closed.kept (h : C.Closed) : C.discipline.Kept where
  operand := h.operand
  bindError _ := trivial
  nestedList _ := trivial
  constant := h.constant
  lookup hm _ hv := hm.1.lookup hv
  define _ hm _ hv hdefine := ⟨hm.1.define hv hdefine, hm.2.define hdefine⟩
  assign _ hm _ hv hassign := ⟨hm.1.assign hv hassign, hm.2.assign hassign⟩
  lambda hn hm _ := ⟨h.lambda hn, hm⟩
  count hm := hm
  hostFunction hm _ hf := by
    obtain ⟨id, -, r, hr, hget⟩ := Machine.exists_of_hostFunction? hf
    exact hm.2 id r hr _ _ hget
  callHost {f args shape values} hf hp hargs m hm := by
    unfold Eval.Ends
    rw [Eval.callHost_eq]
    cases hresult : Eval.hostResult f.name shape (f.call values m.world).1 with
    | error e => exact ⟨trivial, hm⟩
    | ok v =>
      refine ⟨?_, hm⟩
      rcases Eval.hostResult_eq_ok hresult with rfl | hanswer
      · exact h.constant (by decide)
      · exact h.answer hf hp.fits hargs hanswer

theorem Closed.opens (h : C.Closed) : C.discipline.Opens where
  depth _ hm := hm
  openChild _ hb hm := ⟨⟨hm.1.openChild hb, hm.2.openChild⟩, trivial⟩
  body := h.body

theorem Closed.sustains (h : C.Closed) {R : Machine ω → Machine ω → Prop}
    (hR : C.discipline.Moves R) : C.discipline.Sustains R :=
  ⟨h.kept, h.opens, hR, fun _ => trivial⟩

/-- A new machine contains host functions only. -/
theorem machine_new {registry : Registry ω}
    (hregistry : ∀ name f, registry.get? name = some f → C.host f) (world : ω) :
    C.discipline.machine (.new registry world) :=
  ⟨Machine.holds_new registry world, Machine.offers_new hregistry world⟩

end Contents

end HostLisp
