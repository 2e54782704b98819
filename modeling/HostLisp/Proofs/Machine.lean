import HostLisp.Machine

/-!
# What the operations of a machine change

A machine is changed in few ways: a scope is opened, and the bindings of one scope are updated.  For
each there is one lemma about each thing that can be asked of a scope: its bindings, its registry
and the scopes around it.  Numbers of scopes that do not exist are not excluded anywhere; such a
scope reads as one without bindings, registry and surroundings, and updating it does nothing.

So a property that all bound values have, or all registries, is lost only if something is bound that
does not have it (`Machine.Holds`, `Machine.Offers`).
-/

namespace HostLisp.Machine

variable {ω : Type} {m m' : Machine ω} {env id : ScopeId} {name : String} {v : Value}

/-! ## Scopes that do not exist -/

theorem bindings_of_size_le (h : m.scopes.size ≤ id) : m.bindings id = [] := by
  unfold bindings
  rw [Array.getElem?_eq_none h]

theorem outer_of_size_le (h : m.scopes.size ≤ id) : m.outer id = [] := by
  unfold outer
  rw [Array.getElem?_eq_none h]

/-! ## Updating bindings -/

theorem bindings_updateBindings (f : Bindings → Bindings) :
    (m.updateBindings env f).bindings id =
      if env = id ∧ id < m.scopes.size then f (m.bindings id) else m.bindings id := by
  unfold bindings updateBindings
  simp only [Array.getElem?_modify]
  by_cases henv : env = id
  · subst henv
    cases hscope : m.scopes[env]? with
    | none =>
      have hsize : ¬ env < m.scopes.size := Nat.not_lt.2 (Array.getElem?_eq_none_iff.1 hscope)
      simp [hsize]
    | some scope => simp [(Array.getElem?_eq_some_iff.1 hscope).1]
  · simp [henv]

theorem registry?_updateBindings (f : Bindings → Bindings) :
    registry? (m.updateBindings env f) id = m.registry? id := by
  unfold registry? updateBindings
  simp only [Array.getElem?_modify]
  split
  · cases m.scopes[id]? <;> rfl
  · rfl

theorem outer_updateBindings (f : Bindings → Bindings) :
    outer (m.updateBindings env f) id = m.outer id := by
  unfold outer updateBindings
  simp only [Array.getElem?_modify]
  by_cases henv : env = id
  · simp only [if_pos henv]
    cases m.scopes[id]? <;> rfl
  · simp only [if_neg henv]

@[simp] theorem size_updateBindings (f : Bindings → Bindings) :
    (m.updateBindings env f).scopes.size = m.scopes.size :=
  Array.size_modify

theorem define_eq_ok (h : m.define env name v = .ok m') :
    m.isLocal env name = false ∧ m' = m.updateBindings env ((name, v) :: ·) := by
  unfold define at h
  split at h
  case isTrue => cases h
  case isFalse hlocal => cases h; exact ⟨by simpa using hlocal, rfl⟩

theorem assign_eq_ok (h : m.assign env name v = .ok m') :
    ∃ id, m.holder? env name = some id ∧ m' = m.updateBindings id (·.replace name v) := by
  unfold assign at h
  split at h
  case h_1 id hid => cases h; exact ⟨id, hid, rfl⟩
  case h_2 => cases h

/-! ## Opening scopes -/

theorem bindings_openScope (scope : Scope ω) :
    (m.openScope scope).2.bindings id =
      if id = m.scopes.size then scope.bindings else m.bindings id := by
  unfold bindings openScope
  simp only [Array.getElem?_push]
  by_cases hid : id = m.scopes.size
  · simp only [if_pos hid]
  · simp only [if_neg hid]

theorem registry?_openScope (scope : Scope ω) :
    registry? (m.openScope scope).2 id =
      if id = m.scopes.size then scope.registry else m.registry? id := by
  unfold registry? openScope
  simp only [Array.getElem?_push]
  by_cases hid : id = m.scopes.size
  · simp only [if_pos hid, Option.bind_some]
  · simp only [if_neg hid]

theorem outer_openScope (scope : Scope ω) :
    outer (m.openScope scope).2 id = if id = m.scopes.size then scope.outer else m.outer id := by
  unfold outer openScope
  simp only [Array.getElem?_push]
  by_cases hid : id = m.scopes.size
  · simp only [if_pos hid]
  · simp only [if_neg hid]

@[simp] theorem size_openScope (scope : Scope ω) :
    (m.openScope scope).2.scopes.size = m.scopes.size + 1 :=
  Array.size_push scope

/-! ## New machines -/

theorem bindings_new (registry : Registry ω) (world : ω) :
    (new registry world).bindings id = [] := by
  unfold bindings new
  cases id <;> rfl

theorem registry?_new {registry r : Registry ω} {world : ω}
    (h : registry? (new registry world) id = some r) : r = registry := by
  unfold registry? new at h
  cases id with
  | zero => exact (Option.some.inj h).symm
  | succ n => cases h

/-! ## Reading names -/

/-- A value that is found is bound somewhere on the chain. -/
theorem exists_of_lookup (h : m.lookup env name = some v) :
    ∃ id ∈ m.chain env, (name, v) ∈ m.bindings id := by
  obtain ⟨id, hid, hget⟩ := List.exists_of_findSome?_eq_some h
  refine ⟨id, hid, ?_⟩
  obtain ⟨before, after, heq, -⟩ := List.lookup_eq_some_iff.1 hget
  rw [heq]
  simp

/-- A host function that is found is in a registry on the chain. -/
theorem exists_of_hostFunction? {f : HostFunction ω} (h : m.hostFunction? env name = some f) :
    ∃ id ∈ m.chain env, ∃ r, m.registry? id = some r ∧ r.get? name = some f := by
  obtain ⟨id, hid, hget⟩ := List.exists_of_findSome?_eq_some h
  obtain ⟨r, hr, hf⟩ := Option.bind_eq_some_iff.1 hget
  exact ⟨id, hid, r, hr, hf⟩

/-! ## All that is bound and offered -/

/-- Every value that is bound in some scope has the property. -/
def Holds (P : Value → Prop) (m : Machine ω) : Prop := ∀ id b, b ∈ m.bindings id → P b.2

/-- Every registry that is offered in some scope has the property. -/
def Offers (Q : Registry ω → Prop) (m : Machine ω) : Prop := ∀ id r, m.registry? id = some r → Q r

section Holds

variable {P : Value → Prop} {Q : Registry ω → Prop} {bindings : Bindings}

theorem Holds.updateBindings {f : Bindings → Bindings} (h : m.Holds P)
    (hf : ∀ b ∈ f (m.bindings env), P b.2) : (m.updateBindings env f).Holds P := by
  intro id b hb
  rw [bindings_updateBindings] at hb
  split at hb
  case isTrue henv => exact hf b (henv.1 ▸ hb)
  case isFalse => exact h id b hb

theorem Holds.define (h : m.Holds P) (hv : P v) (hdefine : m.define env name v = .ok m') :
    m'.Holds P := by
  obtain ⟨-, rfl⟩ := define_eq_ok hdefine
  exact h.updateBindings (List.forall_mem_cons.2 ⟨hv, h env⟩)

theorem Holds.assign (h : m.Holds P) (hv : P v) (hassign : m.assign env name v = .ok m') :
    m'.Holds P := by
  obtain ⟨id, -, rfl⟩ := assign_eq_ok hassign
  refine h.updateBindings fun b hb => ?_
  obtain ⟨b', hb', rfl⟩ := List.mem_map.1 hb
  split
  · exact hv
  · exact h id b' hb'

theorem Holds.openChild (h : m.Holds P) (hb : ∀ b ∈ bindings, P b.2) :
    (m.openChild env bindings).2.Holds P := by
  intro id b hmem
  rw [Machine.openChild, bindings_openScope] at hmem
  split at hmem
  · exact hb b hmem
  · exact h id b hmem

theorem Holds.lookup (h : m.Holds P) (hv : m.lookup env name = some v) : P v := by
  obtain ⟨id, -, hmem⟩ := exists_of_lookup hv
  exact h id _ hmem

theorem holds_new (registry : Registry ω) (world : ω) : (new registry world).Holds P := by
  intro id b hb
  simp [bindings_new] at hb

theorem Offers.updateBindings {f : Bindings → Bindings} (h : m.Offers Q) :
    (m.updateBindings env f).Offers Q :=
  fun id r hr => h id r (registry?_updateBindings f ▸ hr)

theorem Offers.define (h : m.Offers Q) (hdefine : m.define env name v = .ok m') : m'.Offers Q := by
  obtain ⟨-, rfl⟩ := define_eq_ok hdefine
  exact h.updateBindings

theorem Offers.assign (h : m.Offers Q) (hassign : m.assign env name v = .ok m') : m'.Offers Q := by
  obtain ⟨id, -, rfl⟩ := assign_eq_ok hassign
  exact h.updateBindings

theorem Offers.openChild (h : m.Offers Q) : (m.openChild env bindings).2.Offers Q := by
  intro id r hr
  rw [Machine.openChild, registry?_openScope] at hr
  split at hr
  · cases hr
  · exact h id r hr

theorem offers_new {registry : Registry ω} (h : Q registry) (world : ω) :
    (new registry world).Offers Q := by
  intro id r hr
  exact registry?_new hr ▸ h

end Holds

end HostLisp.Machine
