import HostLisp.Command
import HostLisp.Proofs.Grammar
import HostLisp.Proofs.Library

/-!
# No program provokes a fault

A fault is not the program's doing.  There are four of them, and each is ruled out where it could
arise.  The token list of a source has a last token, and the parser stops there
(`parse_ne_fatal`).  A host function that conforms to its signature is only asked with arguments
that fit, so what it does is what it declared (`Discipline.faultless`).  A tree that comes from a
source has no program below its root (`parse_sound`), and what evaluation takes from the tree, or
puts into closures, are parts of it.

The last point needs one thing more of the host, which signatures do not speak of.  A closure is the
value of a `lambda` and holds a piece of tree, and a host function may return one.  It must not make
one up with a program inside; what the program gave it, it may return.  That it keeps to its
signature is not enough (`Registry.forging`).  The library functions return no closures at all.
-/

namespace HostLisp

variable {ω : Type}

/-! ## Trees without programs inside -/

/-- An expression that has no program inside. -/
inductive Node.ListFree : Node → Prop where
  | call {name : String} {args : List Node} : (∀ a ∈ args, a.ListFree) → ListFree (.call name args)
  | define {name : String} {value : Node} : value.ListFree → ListFree (.define name value)
  | assign {name : String} {value : Node} : value.ListFree → ListFree (.assign name value)
  | cond {test conseq alt : Node} :
    test.ListFree → conseq.ListFree → alt.ListFree → ListFree (.cond test conseq alt)
  | begin {body : List Node} : (∀ e ∈ body, e.ListFree) → ListFree (.begin body)
  | var {name : String} : ListFree (.var name)
  | number {literal : NumberLiteral} : ListFree (.number literal)
  | str {text : String} : ListFree (.str text)
  | bool {value : Bool} : ListFree (.bool value)
  | lambda {params : List String} {name : String} {args : List Node} :
    (∀ a ∈ args, a.ListFree) → ListFree (.lambda params name args)

theorem Node.listFree_hereditary : Hereditary Node.ListFree where
  operand {node} h part hpart := by
    cases h with
    | call hargs => exact hargs part hpart
    | define hvalue => exact List.mem_singleton.1 hpart ▸ hvalue
    | assign hvalue => exact List.mem_singleton.1 hpart ▸ hvalue
    | cond htest hconseq halt =>
      cases Node.isOperand_of_mem hpart with
      | test => exact htest
      | conseq => exact hconseq
      | alt => exact halt
    | begin hbody => exact hbody part hpart
    | var | number | str | bool | lambda _ => cases hpart
  body h := by
    cases h with
    | lambda hargs => exact .call hargs

theorem Node.not_listFree_list {children : List Node} : ¬ Node.ListFree (.list children) := by
  intro h
  cases h

theorem Node.Proper.listFree {node : Node} (h : node.Proper) : node.ListFree := by
  induction h with
  | call _ _ ih => exact .call ih
  | define _ _ ih => exact .define ih
  | assign _ _ ih => exact .assign ih
  | cond _ _ _ ihtest ihconseq ihalt => exact .cond ihtest ihconseq ihalt
  | begin _ _ ih => exact .begin ih
  | var _ => exact .var
  | number _ => exact .number
  | str => exact .str
  | bool => exact .bool
  | lambda _ _ _ ih => exact .lambda ih

/-! ## Whole runs -/

section Run

variable {P : Node → Prop} {good : ω → Prop} {registry : Registry ω} {world : ω}

theorem Discipline.faultless_new (hconforms : registry.Conforms) (hkeeps : registry.Keeps P good)
    (hworld : good world) : (faultless P good).machine (.new registry world) :=
  ⟨Machine.offers_new ⟨hconforms, hkeeps⟩ world, Machine.holds_new registry world, hworld⟩

/-- A run in a new machine ends in no fault, unless a program can stand where `P` holds. -/
theorem runWith_faultless (hP : Hereditary P) (hproper : ∀ node : Node, node.Proper → P node)
    (hconforms : registry.Conforms) (hkeeps : registry.Keeps P good) (hworld : good world)
    {source : String} {sink : Sink} {fault : Fault}
    (h : (runWith registry world source sink).1 = some (.fatal fault)) :
    fault = .nestedList ∧ ∃ children, P (.list children) := by
  unfold runWith execSource at h
  cases hparse : parse source with
  | error e =>
    rw [hparse] at h
    obtain rfl : e = .fatal fault := Option.some.inj h
    exact absurd hparse (parse_ne_fatal source fault)
  | ok program =>
    have hprogram := parse_sound hparse
    rw [hparse] at h
    cases program with
    | list children =>
      have hkept : (Discipline.faultless P good).Kept := Discipline.faultless_kept hP
      have hnodes : ∀ e ∈ children, P e := fun e he => hproper e (hprogram e he).1
      have hrun := hkept.nodes Discipline.faultless_opens (fun _ _ => trivial)
        (fun fault hfault => by cases hfault) hnodes ⟨.new registry world, sink⟩
        (Discipline.faultless_new hconforms hkeeps hworld)
      have hexec : exec (ω := ω) (.list children) = Exec.nodes children := rfl
      simp only [hexec, Exec.outcome] at h
      split at hrun
      case h_1 hok => simp [hok] at h
      case h_2 e c' herror =>
        simp only [herror, Option.some.injEq] at h
        exact hrun.1 fault h
    | _ => exact hprogram.elim

theorem run_ne_fatal (source : String) (sink : Sink) (fault : Fault) :
    (run source sink).1 ≠ some (.fatal fault) := by
  intro h
  have hkeeps := Library.registry_keeps Node.ListFree (fun _ : Unit => True)
  obtain ⟨-, children, hfree⟩ := runWith_faultless Node.listFree_hereditary
    (fun _ => Node.Proper.listFree) Library.registry_conforms hkeeps trivial h
  exact Node.not_listFree_list hfree

end Run

/-! ## The command -/

namespace Command

theorem status_ofResult {error? : Option Error} (h : ∀ fault, error? ≠ some (.fatal fault))
    (output : String) : (Response.ofResult output error?).status ≠ 70 := by
  match error? with
  | none => simp [Response.ofResult, Response.success]
  | some (.fatal fault) => exact absurd rfl (h fault)
  | some (.lexical _ _) | some (.parse _) | some (.bind _) | some (.host _ _) | some .sinkFull =>
    simp [Response.ofResult, Response.failure, statusOf, Error.isFatal]

theorem status_process (o : Options) (source : String) : (process o source).status ≠ 70 := by
  unfold process
  split
  case isTrue => simp [Response.success]
  case isFalse =>
    split
    case isTrue =>
      split
      case h_1 => simp [Response.success]
      case h_2 e hparse =>
        refine status_ofResult (fun fault hfault => ?_) ""
        obtain rfl := Option.some.inj hfault
        exact parse_ne_fatal source fault hparse
    case isFalse => exact status_ofResult (run_ne_fatal source .unlimited) _

theorem status_respond (request : Request) (contents : Except ReadError String) :
    (respond request contents).status ≠ 70 := by
  unfold respond
  split
  case h_4 o =>
    split
    case h_1 source => exact status_process o source
    case h_2 => simp [Response.failure]
  all_goals simp [Response.success]

end Command

/-! ## All programs -/

/-- If the host functions do what their signatures declare, then no source and no output provokes a
fault other than a program in the place of an expression, and not that one either if the host makes
up no closures with a program inside.  The library functions do what their signatures declare, so
running a source with them ends in no fault at all, and the command never ends with the status of
one. -/
theorem no_source_provokes_fault (registry : Registry ω) (hconforms : registry.Conforms) (world : ω)
    (source : String) (sink : Sink) :
    (∀ fault, (runWith registry world source sink).1 = some (.fatal fault) → fault = .nestedList) ∧
    (∀ good : ω → Prop, registry.Keeps Node.ListFree good → good world →
      ∀ fault, (runWith registry world source sink).1 ≠ some (.fatal fault)) ∧
    (Library.registry : Registry ω).Conforms ∧
    (∀ fault, (run source sink).1 ≠ some (.fatal fault)) ∧
    (∀ request contents, (Command.respond request contents).status ≠ 70) := by
  refine ⟨?_, ?_, Library.registry_conforms, run_ne_fatal source sink, Command.status_respond⟩
  · intro fault hfault
    have hkeeps : registry.Keeps (fun _ => True) (fun _ => True) :=
      fun _ _ _ _ _ _ _ _ => ⟨trivial, fun _ _ _ _ => trivial⟩
    have hhereditary : Hereditary fun _ => True := ⟨fun _ _ _ => trivial, fun _ => trivial⟩
    exact (runWith_faultless hhereditary (fun _ _ => trivial) hconforms hkeeps trivial hfault).1
  · intro good hkeeps hworld fault hfault
    obtain ⟨-, children, hfree⟩ := runWith_faultless Node.listFree_hereditary
      (fun _ => Node.Proper.listFree) hconforms hkeeps hworld hfault
    exact Node.not_listFree_list hfree

/-- A host that returns what it is given, closures too, and counts how often it is asked. -/
def Registry.echoing : Registry Nat :=
  ⟨[{ name := "echo"
      signature := ⟨[.any], none, [.any]⟩
      call := fun args asked => (.ok (args.headD .unit), asked + 1) }]⟩

theorem Registry.get?_single {f g : HostFunction ω} {name : String}
    (h : (⟨[f]⟩ : Registry ω).get? name = some g) : g = f :=
  List.mem_singleton.1 (List.mem_of_find?_eq_some h)

theorem echoing_provokes_no_fault :
    Registry.echoing.Conforms ∧ Registry.echoing.Keeps Node.ListFree (fun _ => True) ∧
    ∀ fault, (runWith Registry.echoing 0
      "(define f (echo (lambda (x) (echo x)))) (f 3)" .unlimited).1 ≠ some (.fatal fault) := by
  have hconforms : Registry.echoing.Conforms := by
    intro name f h
    obtain rfl := Registry.get?_single h
    refine ⟨fun args world cause _ herror => (by cases herror), fun args world v _ _ k _ hk => ?_⟩
    obtain rfl : k = .any := Signature.kind_unique (.inl rfl) hk
    rfl
  have hkeeps : Registry.echoing.Keeps Node.ListFree (fun _ => True) := by
    intro name f h args world _ hargs _
    obtain rfl := Registry.get?_single h
    refine ⟨trivial, fun v hv => ?_⟩
    obtain rfl : args.headD .unit = v := Except.ok.inj hv
    cases args with
    | nil => exact Value.within_of_kind (by simp [Value.kind])
    | cons w rest => exact hargs w (by simp)
  exact ⟨hconforms, hkeeps,
    (no_source_provokes_fault Registry.echoing hconforms 0 _ _).2.1 _ hkeeps trivial⟩

/-- A host that is given a closure and makes up another one from it.  The scope stays the captured
one, but in the body a program stands in the place of an argument. -/
def Registry.forging : Registry Unit :=
  ⟨[{ name := "forge"
      signature := ⟨[.closure], none, [.closure]⟩
      call := fun args world =>
        match args with
        | [.closure c] =>
          (.ok (.closure { c with params := [], body := ⟨"forge", [.list []]⟩ }), world)
        | _ => (.error "expected a closure", world) }]⟩

/-- A host that does what its signature declares and still lets a program provoke a fault: what is
asked of the closures that a host returns cannot be dropped. -/
theorem Registry.forging_faults : Registry.forging.Conforms ∧
    (runWith Registry.forging () "(define f (forge (lambda (x) (forge x)))) (f)" .unlimited).1
      = some (.fatal .nestedList) := by
  refine ⟨fun name f h => ?_, by decide +kernel⟩
  obtain rfl := Registry.get?_single h
  -- Arguments that fit are one closure, so the second case of the call is never met.
  have hargs : ∀ args : List Value, (⟨[.closure], none, [.closure]⟩ : Signature).Fits args →
      ∃ c, args = [.closure c] := by
    intro args hfits
    obtain ⟨v, rest, rfl, hv, hrest⟩ := hfits.cons
    obtain rfl := hrest.nil
    obtain ⟨c, rfl⟩ := Kind.admits_closure hv
    exact ⟨c, rfl⟩
  refine ⟨fun args world cause hfits herror => ?_, fun args world v hfits hv k _ hk => ?_⟩
  · obtain ⟨c, rfl⟩ := hargs args hfits
    cases herror
  · obtain ⟨c, rfl⟩ := hargs args hfits
    obtain rfl : k = .closure := Signature.kind_unique (.inl rfl) hk
    obtain rfl := Except.ok.inj hv
    rfl

end HostLisp
