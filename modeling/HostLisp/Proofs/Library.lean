import HostLisp.Library
import HostLisp.Proofs.Conformity

/-!
# The library keeps its promises

Every library function conforms to its signature.  There are two halves to this.  What a function
returns is of the declared kind whatever the arguments are (`Entry.Yields`), so for that half the
arguments need not fit; in particular no library function returns a closure.  That a function
without a declared error does not fail needs arguments that fit, and what fitting comes to for a
given list of parameters is read off it one parameter at a time (`Signature.Fits.cons`).
-/

namespace HostLisp

/-! ## Arguments that fit, one at a time -/

section Fits

variable {k : Kind} {params returns : List Kind} {variadic : Option Kind} {args : List Value}

/-- The first parameter takes the first argument. -/
theorem Signature.Fits.cons (h : (⟨k :: params, variadic, returns⟩ : Signature).Fits args) :
    ∃ v rest, args = v :: rest ∧ k.admits v.kind = true ∧
      (⟨params, variadic, returns⟩ : Signature).Fits rest := by
  cases args with
  | nil =>
    have harity := h.arity
    cases variadic <;> simp [Signature.arity, Arity.fits] at harity
  | cons v rest =>
    obtain ⟨k', hk', hadmits⟩ := h.slots 0 v rfl
    refine ⟨v, rest, rfl, ?_, ?_, fun i w hw => ?_⟩
    · simp only [Signature.param?, List.getElem?_cons_zero, Option.some_or,
        Option.some.injEq] at hk'
      exact hk' ▸ hadmits
    · have harity := h.arity
      cases variadic <;> simpa [Signature.arity, Arity.fits] using harity
    · obtain ⟨k₂, hk₂, hadmits₂⟩ := h.slots (i + 1) w (by simpa using hw)
      exact ⟨k₂, by simpa [Signature.param?] using hk₂, hadmits₂⟩

/-- Without parameters there is no argument. -/
theorem Signature.Fits.nil (h : (⟨[], none, returns⟩ : Signature).Fits args) : args = [] := by
  have harity := h.arity
  simpa [Signature.arity, Arity.fits] using harity

/-- Behind the parameters every argument is of the variadic kind. -/
theorem Signature.Fits.rest (h : (⟨[], some k, returns⟩ : Signature).Fits args) :
    ∀ v ∈ args, k.admits v.kind = true := by
  intro v hv
  obtain ⟨i, hi, rfl⟩ := List.getElem_of_mem hv
  obtain ⟨k', hk', hadmits⟩ := h.slots i args[i] (List.getElem?_eq_getElem hi)
  simp only [Signature.param?, List.getElem?_nil, Option.none_or, Option.some.injEq] at hk'
  exact hk' ▸ hadmits

end Fits

theorem Kind.admits_int {v : Value} (h : Kind.int.admits v.kind = true) : ∃ i, v = .int i := by
  cases v <;> simp [Kind.admits, Value.kind] at h ⊢

theorem Kind.admits_uint {v : Value} (h : Kind.uint.admits v.kind = true) : ∃ u, v = .uint u := by
  cases v <;> simp [Kind.admits, Value.kind] at h ⊢

theorem Kind.admits_bool {v : Value} (h : Kind.bool.admits v.kind = true) : ∃ b, v = .bool b := by
  cases v <;> simp [Kind.admits, Value.kind] at h ⊢

theorem Kind.admits_str {v : Value} (h : Kind.str.admits v.kind = true) : ∃ s, v = .str s := by
  cases v <;> simp [Kind.admits, Value.kind] at h ⊢

theorem Kind.admits_closure {v : Value} (h : Kind.closure.admits v.kind = true) :
    ∃ c, v = .closure c := by
  cases v <;> simp [Kind.admits, Value.kind] at h ⊢

/-- A function that was added is found, and hides the one that had its name. -/
theorem Registry.get?_insert {ω : Type} (r : Registry ω) (f : HostFunction ω) (name : String) :
    (r.insert f).get? name = if f.name = name then some f else r.get? name := by
  unfold insert get?
  rw [List.find?_cons, List.find?_filter]
  split
  case h_1 h => rw [if_pos (of_decide_eq_true h)]
  case h_2 h =>
    have hne : f.name ≠ name := of_decide_eq_false h
    rw [if_neg hne]
    congr 1
    funext g
    by_cases hg : g.name = name
    · simp [hg, hne.symm]
    · simp [hg]

namespace Library

/-! ## What comes back -/

/-- The result, if there is one, is of a given kind. -/
def Yields (x : Except Failure Value) (k : Kind) : Prop := ∀ v, x = .ok v → v.kind = k

theorem yields_ok {v : Value} {k : Kind} (h : v.kind = k) : Yields (.ok v) k := by
  rintro w ⟨⟩
  exact h

theorem yields_error {e : Failure} {k : Kind} : Yields (.error e) k := by
  rintro w ⟨⟩

/-- A sequence yields what its last step yields. -/
theorem yields_bind {α : Type} {x : Except Failure α} {f : α → Except Failure Value} {k : Kind}
    (h : ∀ a, Yields (f a) k) : Yields (x >>= f) k := by
  cases x with
  | ok a => exact h a
  | error e => exact yields_error

theorem equal_yields (args : List Value) : Yields (equal args) .bool := by
  unfold equal
  split
  · exact yields_ok rfl
  · exact yields_error

theorem negate_yields (args : List Value) : Yields (negate args) .bool := by
  unfold negate
  split
  · exact yields_ok rfl
  · exact yields_error

theorem print_yields (ending : String) (args : List Value) : Yields (print ending args) .str := by
  unfold print
  split
  · exact yields_ok rfl
  · exact yields_error

theorem repeatText_yields (args : List Value) : Yields (repeatText args) .str := by
  unfold repeatText
  split
  · split
    · exact yields_ok rfl
    · exact yields_error
  · exact yields_error

/-! ## What does not fail -/

theorem compare_succeeds (test : Int64 → Int64 → Bool) {returns : List Kind} {args : List Value}
    (h : (⟨[.int, .int], none, returns⟩ : Signature).Fits args) :
    ∃ v, compare test args = .ok v := by
  obtain ⟨v, _, rfl, hv, h⟩ := h.cons
  obtain ⟨w, _, rfl, hw, h⟩ := h.cons
  obtain rfl := h.nil
  obtain ⟨a, rfl⟩ := Kind.admits_int hv
  obtain ⟨b, rfl⟩ := Kind.admits_int hw
  exact ⟨.bool (test a b), rfl⟩

theorem equal_succeeds {returns : List Kind} {args : List Value}
    (h : (⟨[.any, .any], none, returns⟩ : Signature).Fits args) : ∃ v, equal args = .ok v := by
  obtain ⟨v, _, rfl, -, h⟩ := h.cons
  obtain ⟨w, _, rfl, -, h⟩ := h.cons
  obtain rfl := h.nil
  exact ⟨.bool (v.same w), rfl⟩

theorem negate_succeeds {returns : List Kind} {args : List Value}
    (h : (⟨[.bool], none, returns⟩ : Signature).Fits args) : ∃ v, negate args = .ok v := by
  obtain ⟨v, _, rfl, hv, -⟩ := h.cons
  obtain ⟨b, rfl⟩ := Kind.admits_bool hv
  exact ⟨.bool !b, rfl⟩

theorem print_succeeds (ending : String) {returns : List Kind} {variadic : Option Kind}
    {args : List Value} (h : (⟨[.str], variadic, returns⟩ : Signature).Fits args) :
    ∃ v, print ending args = .ok v := by
  obtain ⟨v, rest, rfl, hv, -⟩ := h.cons
  obtain ⟨s, rfl⟩ := Kind.admits_str hv
  exact ⟨.str (format s rest ++ ending), rfl⟩

theorem succeeds_mapM_bind {α β : Type} {f : α → Except Failure β}
    {g : List β → Except Failure Value} (l : List α) (hf : ∀ a ∈ l, ∃ b, f a = .ok b)
    (hg : ∀ bs, ∃ v, g bs = .ok v) : ∃ v, (l.mapM f >>= g) = .ok v := by
  suffices h : ∃ bs, l.mapM f = .ok bs by
    obtain ⟨bs, hbs⟩ := h
    obtain ⟨v, hv⟩ := hg bs
    exact ⟨v, by rw [hbs]; exact hv⟩
  induction l with
  | nil => exact ⟨[], rfl⟩
  | cons a rest ih =>
    obtain ⟨b, hb⟩ := hf a (by simp)
    obtain ⟨bs, hbs⟩ := ih fun a' ha' => hf a' (by simp [ha'])
    exact ⟨b :: bs, by rw [List.mapM_cons, hb, hbs]; rfl⟩

theorem concat_succeeds {returns : List Kind} {args : List Value}
    (h : (⟨[], some .str, returns⟩ : Signature).Fits args) : ∃ v, concat args = .ok v := by
  refine succeeds_mapM_bind args (fun v hv => ?_) fun texts => ⟨.str (String.join texts), rfl⟩
  obtain ⟨s, rfl⟩ := Kind.admits_str (h.rest v hv)
  exact ⟨s, rfl⟩

/-! ## Every entry -/

/-- An entry whose function conforms to its signature, and returns no closures. -/
structure Entry.Sound (e : Entry) : Prop where
  yields : ∃ k, k ≠ .error ∧ k ≠ .closure ∧ (e.returns = [k] ∨ e.returns = [k, .error]) ∧
    ∀ args, Yields (e.call args) k
  succeeds : Kind.error ∈ e.returns ∨ ∀ args, e.signature.Fits args → ∃ v, e.call args = .ok v

theorem Entry.sound_of_succeeds {name : String} {params : List Kind} {variadic : Option Kind}
    {call : List Value → Except Failure Value} {k : Kind} (hk : k ≠ .error ∧ k ≠ .closure)
    (hyields : ∀ args, Yields (call args) k)
    (hsucceeds : ∀ args, (⟨params, variadic, [k]⟩ : Signature).Fits args → ∃ v, call args = .ok v) :
    (⟨name, params, variadic, [k], call⟩ : Entry).Sound :=
  ⟨⟨k, hk.1, hk.2, .inl rfl, hyields⟩, .inr hsucceeds⟩

theorem Entry.sound_of_fallible {name : String} {params : List Kind} {variadic : Option Kind}
    {call : List Value → Except Failure Value} {k : Kind} (hk : k ≠ .error ∧ k ≠ .closure)
    (hyields : ∀ args, Yields (call args) k) :
    (⟨name, params, variadic, [k, .error], call⟩ : Entry).Sound :=
  ⟨⟨k, hk.1, hk.2, .inr rfl, hyields⟩, .inl (by simp)⟩

theorem compare_sound (name : String) (test : Int64 → Int64 → Bool) :
    (⟨name, [.int, .int], none, [.bool], compare test⟩ : Entry).Sound :=
  Entry.sound_of_succeeds (by decide) (fun _ => yields_bind fun _ => yields_ok rfl)
    fun _ h => compare_succeeds test h

theorem print_sound (name ending : String) :
    (⟨name, [.str], some .any, [.str], print ending⟩ : Entry).Sound :=
  Entry.sound_of_succeeds (by decide) (print_yields ending) fun _ h => print_succeeds ending h

theorem entries_sound : ∀ e ∈ entries, e.Sound := by
  have hint : ∀ {α : Type} {x : Except Failure α} {f : α → Except Failure Int64},
      Yields (x >>= fun a => f a >>= fun i => pure (.int i)) .int :=
    yields_bind fun a => yields_bind fun i => yields_ok rfl
  simp only [entries, List.forall_mem_cons, List.not_mem_nil, false_implies, implies_true, and_true]
  refine ⟨?_, ?_, ?_, ?_, ?_, ?_, ?_, ?_, ?_, ?_, ?_, ?_, ?_, ?_, ?_⟩
  · exact Entry.sound_of_fallible (by decide) fun _ => hint
  · exact Entry.sound_of_fallible (by decide) fun _ => hint
  · exact Entry.sound_of_fallible (by decide) fun _ => hint
  · exact Entry.sound_of_fallible (by decide) fun _ => hint
  · exact Entry.sound_of_fallible (by decide) fun _ => hint
  · exact compare_sound _ _
  · exact compare_sound _ _
  · exact compare_sound _ _
  · exact compare_sound _ _
  · exact Entry.sound_of_succeeds (by decide) equal_yields fun _ h => equal_succeeds h
  · exact Entry.sound_of_succeeds (by decide) negate_yields fun _ h => negate_succeeds h
  · exact print_sound _ _
  · exact print_sound _ _
  · exact Entry.sound_of_succeeds (by decide) (fun _ => yields_bind fun _ => yields_ok rfl)
      fun _ h => concat_succeeds h
  · exact Entry.sound_of_fallible (by decide) repeatText_yields

/-! ## The registry -/

section Registry

variable {ω : Type} {e : Entry}

/-- As a host function, a library function does what it computes. -/
theorem Entry.toHost_call (args : List Value) (world : ω) :
    (e.toHost.call args world).1 = (e.call args).mapError Failure.message := rfl

theorem Entry.toHost_eq_ok {args : List Value} {world : ω} {v : Value}
    (h : (e.toHost.call args world).1 = .ok v) : e.call args = .ok v := by
  rw [Entry.toHost_call] at h
  cases hcall : e.call args with
  | ok w =>
    rw [hcall] at h
    cases h
    rfl
  | error failure =>
    rw [hcall] at h
    cases h

theorem Entry.Sound.conforms (he : e.Sound) : (e.toHost : HostFunction ω).Conforms where
  fails args world cause hfits h := by
    rcases he.succeeds with herror | hsucceeds
    · exact herror
    · obtain ⟨v, hv⟩ := hsucceeds args hfits
      rw [Entry.toHost_call, hv] at h
      cases h
  returns args world v hfits h k hk hreturns := by
    obtain ⟨k', -, -, hreturns', hyields⟩ := he.yields
    have hkind := hyields args v (Entry.toHost_eq_ok h)
    rw [hkind, Signature.kind_unique (s := e.signature) hreturns' hreturns]
    simp [Kind.admits]

/-- No library function returns a closure, so what its closures are does not matter. -/
theorem Entry.Sound.keeps (he : e.Sound) (P : Node → Prop) (good : ω → Prop) :
    e.toHost.Keeps P good := by
  intro args world hfits hargs hgood
  refine ⟨hgood, fun v hv => Value.within_of_kind ?_⟩
  obtain ⟨k, -, hk, -, hyields⟩ := he.yields
  rw [hyields args v (Entry.toHost_eq_ok hv)]
  exact hk

/-- The registry holds entries only. -/
theorem exists_entry_of_get? {name : String} {f : HostFunction ω}
    (h : registry.get? name = some f) : ∃ e ∈ entries, f = e.toHost := by
  have hfold : ∀ (es : List Entry) (r : Registry ω),
      f ∈ (es.foldl (fun r e => r.insert e.toHost) r).functions →
        f ∈ r.functions ∨ ∃ e ∈ es, f = e.toHost := by
    intro es
    induction es with
    | nil => exact fun r hf => .inl hf
    | cons e rest ih =>
      intro r hf
      rcases ih _ hf with hf | ⟨e', he', rfl⟩
      · rcases List.mem_cons.1 hf with rfl | hf
        · exact .inr ⟨e, by simp, rfl⟩
        · exact .inl (List.mem_filter.1 hf).1
      · exact .inr ⟨e', by simp [he'], rfl⟩
  rcases hfold entries .empty (List.mem_of_find?_eq_some h) with hf | hf
  · exact absurd hf (List.not_mem_nil)
  · exact hf

theorem get?_foldl_insert_of_not_mem {es : List Entry} {name : String}
    (hname : name ∉ es.map Entry.name) (r : Registry ω) :
    (es.foldl (fun r e => r.insert e.toHost) r).get? name = r.get? name := by
  induction es generalizing r with
  | nil => rfl
  | cons e rest ih =>
    rw [List.map_cons, List.mem_cons, not_or] at hname
    rw [List.foldl_cons, ih hname.2, Registry.get?_insert]
    exact if_neg (Ne.symm hname.1)

theorem get?_foldl_insert {es : List Entry} (hnames : (es.map Entry.name).Nodup) (he : e ∈ es)
    (r : Registry ω) :
    (es.foldl (fun r e => r.insert e.toHost) r).get? e.name = some e.toHost := by
  induction es generalizing r with
  | nil => exact absurd he List.not_mem_nil
  | cons e' rest ih =>
    rw [List.map_cons, List.nodup_cons] at hnames
    rw [List.foldl_cons]
    rcases List.mem_cons.1 he with rfl | he
    · rw [get?_foldl_insert_of_not_mem hnames.1, Registry.get?_insert]
      exact if_pos rfl
    · exact ih hnames.2 he _

/-- No name is used twice, so every entry is found under its own. -/
theorem registry_get?_of_mem (he : e ∈ entries) :
    (registry : Registry ω).get? e.name = some e.toHost :=
  get?_foldl_insert (by decide) he .empty

theorem registry_conforms : (registry : Registry ω).Conforms := by
  intro name f h
  obtain ⟨e, he, rfl⟩ := exists_entry_of_get? h
  exact (entries_sound e he).conforms

theorem registry_keeps (P : Node → Prop) (good : ω → Prop) : registry.Keeps P good := by
  intro name f h
  obtain ⟨e, he, rfl⟩ := exists_entry_of_get? h
  exact (entries_sound e he).keeps P good

end Registry

end Library

end HostLisp
