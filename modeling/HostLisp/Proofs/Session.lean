import HostLisp.Proofs.ScopeTree

/-!
# Sessions

A machine lives through round after round.  Each is a source that is read and run, and what one
leaves the next begins with, whether it succeeded, failed on the way or was no program at all.

What a session does are the tasks that it carries out (`Machine.Carries`), and its states are those
between the rounds and those in which a task begins or ends (`Machine.Passes`).  What a discipline
says goes through all of them, and so does what every step leads to (`Discipline.Sustains`).  In
particular all states come before the one that the session ends in (`Machine.Passes.before`), so no
two of them disagree about a scope that both have.  If the scopes are a tree at the start, they are
in every state (`Machine.Tended.passes`).
-/

namespace HostLisp

variable {ω : Type}

/-- What goes through all of a session: a discipline that evaluation keeps to wherever it takes
place, and a relation that every step establishes. -/
structure Discipline.Sustains (D : Discipline ω) (R : Machine ω → Machine ω → Prop) : Prop where
  kept : D.Kept
  opens : D.Opens
  moves : D.Moves R
  globals : ∀ {m}, D.machine m → D.scope m.globals

theorem Discipline.any_sustains : (any ω).Sustains Machine.Before :=
  ⟨any_kept, any_opens, moves_before _, fun _ => trivial⟩

theorem Task.final_of_ok {t : Task ω} {v : Value} {m : Machine ω} (h : t.result = .ok v m) :
    t.final = m := by
  have heval : eval t.node t.env t.machine = .ok v m := h
  rw [final, Eval.after, heval]

/-! ## Expressions in a row -/

namespace Exec

/-- The tasks that running expressions in order starts, one for each that it gets to. -/
inductive Evaluates : List Node → Console ω → Task ω → Prop where
  | first {node rest c} : Evaluates (node :: rest) c ⟨node, c.machine.globals, c.machine⟩
  | next {node rest c v m sink t} :
    eval node c.machine.globals c.machine = .ok v m → c.sink.write v.printed = (true, sink) →
      Evaluates rest ⟨m, sink⟩ t → Evaluates (node :: rest) c t

/-- The machine that a run leaves behind, whether it succeeds or fails. -/
def left (x : Exec ω Unit) (c : Console ω) : Machine ω := (x.outcome c).2.machine

/-- Either the first expression is the last that is evaluated, or the run goes on from there. -/
theorem left_cons (node : Node) (rest : List Node) (c : Console ω) :
    (nodes (node :: rest)).left c = (⟨node, c.machine.globals, c.machine⟩ : Task ω).final ∨
    ∃ v m sink, eval node c.machine.globals c.machine = .ok v m ∧
      c.sink.write v.printed = (true, sink) ∧
      (nodes (node :: rest)).left c = (nodes rest).left ⟨m, sink⟩ := by
  unfold left outcome Task.final Eval.after
  cases heval : eval node c.machine.globals c.machine with
  | error e m => exact .inl (by rw [nodes_cons_of_error heval])
  | ok v m =>
    cases hwrite : c.sink.write v.printed with
    | mk fits sink =>
      cases fits with
      | true => exact .inr ⟨v, m, sink, rfl, hwrite, by rw [nodes_cons_of_taken heval hwrite]⟩
      | false => exact .inl (by rw [nodes_cons_of_full heval hwrite])

theorem left_next {node : Node} {rest : List Node} {c : Console ω} {v : Value} {m : Machine ω}
    {sink : Sink} (heval : eval node c.machine.globals c.machine = .ok v m)
    (hwrite : c.sink.write v.printed = (true, sink)) :
    (nodes (node :: rest)).left c = (nodes rest).left ⟨m, sink⟩ := by
  unfold left outcome
  rw [nodes_cons_of_taken heval hwrite]

/-- A run starts its tasks between its own beginning and end.  The induction is on the expressions,
and the next one begins where the first one ends. -/
theorem nodes_course {D : Discipline ω} {R : Machine ω → Machine ω → Prop} (hD : D.Sustains R)
    {xs : List Node} (hn : ∀ n ∈ xs, D.node n) {c : Console ω} (hc : D.machine c.machine) :
    D.machine ((nodes xs).left c) ∧ R c.machine ((nodes xs).left c) ∧
      ∀ t, Evaluates xs c t → D.Allows t ∧ R t.final ((nodes xs).left c) := by
  induction xs generalizing c with
  | nil => exact ⟨hc, hD.moves.same rfl, fun t ht => nomatch ht⟩
  | cons node rest ih =>
    let s : Task ω := ⟨node, c.machine.globals, c.machine⟩
    have hs : D.Allows s := ⟨hc, hD.globals hc, hn node List.mem_cons_self⟩
    have hfinal := hs.final hD.kept hD.opens
    have hmove : R c.machine s.final := (hD.moves.between hD.kept hD.opens hs .refl).2.1
    have hnext : ∀ {v m sink}, s.result = .ok v m → D.machine ((nodes rest).left ⟨m, sink⟩) ∧
        R s.final ((nodes rest).left ⟨m, sink⟩) ∧ ∀ t, Evaluates rest ⟨m, sink⟩ t →
          D.Allows t ∧ R t.final ((nodes rest).left ⟨m, sink⟩) := fun hv => by
      rw [Task.final_of_ok hv] at hfinal ⊢
      exact ih (fun n hr => hn n (List.mem_cons_of_mem _ hr)) hfinal
    have hleft : D.machine ((nodes (node :: rest)).left c) ∧
        R s.final ((nodes (node :: rest)).left c) := by
      rcases left_cons node rest c with hleft | ⟨v, m, sink, heval, hwrite, hleft⟩
      · rw [hleft]
        exact ⟨hfinal, hD.moves.same rfl⟩
      · rw [hleft]
        exact ⟨(hnext heval).1, (hnext heval).2.1⟩
    refine ⟨hleft.1, hD.moves.trans hmove hleft.2, fun t ht => ?_⟩
    cases ht with
    | first => exact ⟨hs, hleft.2⟩
    | next heval hwrite hrest =>
      rw [left_next heval hwrite]
      exact (hnext heval).2.2 t hrest

theorem nodes_ready {registry : Registry ω} {π : Provenance ω}
    (hregistry : registry.ReturnsArguments) {xs : List Node} {c : Console ω}
    (hc : c.machine.Tended registry π) (hknown : ∀ t, Evaluates xs c t → π.task t) :
    ((nodes xs).left c).Tended registry π ∧ ∀ t, Evaluates xs c t → t.Ready registry π := by
  induction xs generalizing c with
  | nil => exact ⟨hc, fun t ht => nomatch ht⟩
  | cons node rest ih =>
    let s : Task ω := ⟨node, c.machine.globals, c.machine⟩
    have hs : s.Ready registry π := ⟨hc, hc.rooted.globals_lt_size, hknown s .first⟩
    have hsound : s.Sound registry π := (hs.course hregistry).1
    have hnext : ∀ {v m sink}, eval node c.machine.globals c.machine = .ok v m →
        c.sink.write v.printed = (true, sink) →
        ((nodes rest).left ⟨m, sink⟩).Tended registry π ∧
          ∀ t, Evaluates rest ⟨m, sink⟩ t → t.Ready registry π := fun heval hwrite =>
      ih (hsound.of_ok heval).1 fun t ht => hknown t (.next heval hwrite ht)
    refine ⟨?_, fun t ht => ?_⟩
    · rcases left_cons node rest c with hleft | ⟨v, m, sink, heval, hwrite, hleft⟩
      · exact hleft ▸ Task.Sound.final hsound
      · exact hleft ▸ (hnext heval hwrite).1
    · cases ht with
      | first => exact hs
      | next heval hwrite hrest => exact (hnext heval hwrite).2 t hrest

end Exec

/-! ## Rounds -/

/-- A program that is given to a machine, and what takes its output. -/
structure Round where
  source : String
  sink : Sink

/-- All expressions of the programs that are run in the rounds are within the discipline. -/
def Discipline.Admits (D : Discipline ω) (rounds : List Round) : Prop :=
  ∀ r ∈ rounds, ∀ program, parse r.source = .ok program → ∀ n ∈ program.toplevel, D.node n

namespace Machine

/-- The machine after a round, whether it succeeds or fails. -/
def afterRound (m : Machine ω) (r : Round) : Machine ω := (execSource r.source).left ⟨m, r.sink⟩

/-- The machine after some rounds. -/
def afterRounds (m : Machine ω) (rounds : List Round) : Machine ω := rounds.foldl afterRound m

/-- The task is for an expression of the program, which is run in one of the rounds. -/
inductive Evaluates : Machine ω → List Round → Node → Task ω → Prop where
  | now {m r rest program t} : parse r.source = .ok program →
    Exec.Evaluates program.toplevel ⟨m, r.sink⟩ t → Evaluates m (r :: rest) program t
  | later {m r rest program t} :
    Evaluates (m.afterRound r) rest program t → Evaluates m (r :: rest) program t

/-- The task is carried out in the course of the rounds. -/
def Carries (m : Machine ω) (rounds : List Round) (t : Task ω) : Prop :=
  ∃ program s, m.Evaluates rounds program s ∧ s.Reaches t

/-- The states of the machine in the course of the rounds: between them, and whenever a task is
started or comes to its end. -/
inductive Passes (m : Machine ω) (rounds : List Round) : Machine ω → Prop where
  | between {done : List Round} : done <+: rounds → m.Passes rounds (m.afterRounds done)
  | start {t : Task ω} : m.Carries rounds t → m.Passes rounds t.machine
  | finish {t : Task ω} : m.Carries rounds t → m.Passes rounds t.final

/-- The closures that there are in a state of the machine, in the course of rounds that began with
`m₀`: those that are bound in some scope, and those that tasks have returned. -/
inductive Live (m₀ : Machine ω) (rounds : List Round) (m : Machine ω) : Closure → Prop where
  | bound {id : ScopeId} {name : String} {c : Closure} :
    (name, .closure c) ∈ m.bindings id → Live m₀ rounds m c
  | returned {t : Task ω} {c : Closure} {m' : Machine ω} :
    m₀.Carries rounds t → t.result = .ok (.closure c) m' → m'.Before m → Live m₀ rounds m c

variable {m m' m₀ : Machine ω} {registry : Registry ω} {π : Provenance ω}

theorem afterRound_of_parse {r : Round} {program : Node} (h : parse r.source = .ok program) :
    m.afterRound r = (Exec.nodes program.toplevel).left ⟨m, r.sink⟩ := by
  rw [afterRound, execSource, h]
  rfl

/-- A source that is not a program does nothing. -/
theorem afterRound_of_error {r : Round} {e : Error} (h : parse r.source = .error e) :
    m.afterRound r = m := by
  rw [afterRound, execSource, h]
  rfl

theorem afterRounds_append (m : Machine ω) (xs ys : List Round) :
    m.afterRounds (xs ++ ys) = (m.afterRounds xs).afterRounds ys :=
  List.foldl_append

section Course

variable {D : Discipline ω} {R : Machine ω → Machine ω → Prop} (hD : D.Sustains R)
include hD

theorem afterRound_course {r : Round}
    (hn : ∀ program, parse r.source = .ok program → ∀ n ∈ program.toplevel, D.node n)
    (hm : D.machine m) : D.machine (m.afterRound r) ∧ R m (m.afterRound r) := by
  cases hparse : parse r.source with
  | ok program =>
    rw [afterRound_of_parse hparse]
    obtain ⟨hleft, hmove, -⟩ := Exec.nodes_course hD (hn program hparse) (c := ⟨m, r.sink⟩) hm
    exact ⟨hleft, hmove⟩
  | error e =>
    rw [afterRound_of_error hparse]
    exact ⟨hm, hD.moves.same rfl⟩

theorem afterRounds_course {rounds : List Round} (hn : D.Admits rounds) (hm : D.machine m) :
    D.machine (m.afterRounds rounds) ∧ R m (m.afterRounds rounds) := by
  induction rounds generalizing m with
  | nil => exact ⟨hm, hD.moves.same rfl⟩
  | cons r rest ih =>
    obtain ⟨hround, hmove⟩ := afterRound_course hD (hn r List.mem_cons_self) hm
    obtain ⟨hrest, hmoves⟩ := ih (fun r' hr' => hn r' (List.mem_cons_of_mem _ hr')) hround
    exact ⟨hrest, hD.moves.trans hmove hmoves⟩

theorem Evaluates.course {rounds : List Round} {program : Node} {t : Task ω}
    (h : m.Evaluates rounds program t) (hn : D.Admits rounds) (hm : D.machine m) :
    D.Allows t ∧ R t.final (m.afterRounds rounds) := by
  induction h with
  | @now m r rest program t hparse ht =>
    obtain ⟨hallows, hmove⟩ := (Exec.nodes_course hD (hn r List.mem_cons_self program hparse)
      (c := ⟨m, r.sink⟩) hm).2.2 t ht
    obtain ⟨hround, -⟩ := afterRound_course hD (hn r List.mem_cons_self) hm
    rw [← afterRound_of_parse hparse] at hmove
    have hrest := afterRounds_course hD (fun r' hr' => hn r' (List.mem_cons_of_mem _ hr')) hround
    exact ⟨hallows, hD.moves.trans hmove hrest.2⟩
  | @later m r rest program t _ ih =>
    obtain ⟨hround, -⟩ := afterRound_course hD (hn r List.mem_cons_self) hm
    exact ih (fun r' hr' => hn r' (List.mem_cons_of_mem _ hr')) hround

/-- The discipline has something to say about every task of a session. -/
theorem Carries.course {rounds : List Round} {t : Task ω} (h : m.Carries rounds t)
    (hn : D.Admits rounds) (hm : D.machine m) :
    D.Allows t ∧ R t.machine (m.afterRounds rounds) ∧ R t.final (m.afterRounds rounds) := by
  obtain ⟨program, s, hs, hreaches⟩ := h
  obtain ⟨hallows, hmove⟩ := hs.course hD hn hm
  obtain ⟨-, hduring, hend⟩ := hD.moves.between hD.kept hD.opens hallows hreaches
  have hfinal := hD.moves.trans hend hmove
  exact ⟨hallows.reaches hD.kept hD.opens hreaches, hD.moves.trans hduring hfinal, hfinal⟩

/-- It holds of every state of a session, and every state leads to the last one. -/
theorem Passes.course {rounds : List Round} (h : m.Passes rounds m') (hn : D.Admits rounds)
    (hm : D.machine m) : D.machine m' ∧ R m' (m.afterRounds rounds) := by
  cases h with
  | between hdone =>
    obtain ⟨rest, rfl⟩ := hdone
    obtain ⟨hmiddle, -⟩ := afterRounds_course hD (fun r hr => hn r (List.mem_append_left _ hr)) hm
    have hrest := afterRounds_course hD (fun r hr => hn r (List.mem_append_right _ hr)) hmiddle
    rw [afterRounds_append]
    exact ⟨hmiddle, hrest.2⟩
  | start ht =>
    obtain ⟨hallows, hmove, -⟩ := ht.course hD hn hm
    exact ⟨hallows.machine, hmove⟩
  | finish ht =>
    obtain ⟨hallows, -, hmove⟩ := ht.course hD hn hm
    exact ⟨hallows.final hD.kept hD.opens, hmove⟩

end Course

/-- What comes to be in the course of the rounds is there in the end. -/
theorem Passes.before {rounds : List Round} (h : m.Passes rounds m') :
    m'.Before (m.afterRounds rounds) :=
  (h.course Discipline.any_sustains (fun _ _ _ _ _ _ => trivial) trivial).2

/-- At all times a scope that is there has the same scopes around it. -/
theorem Passes.chain_eq {rounds : List Round} {m'' : Machine ω} {id : ScopeId}
    (h : m.Passes rounds m') (h' : m.Passes rounds m'') (hid : id < m'.scopes.size)
    (hid' : id < m''.scopes.size) : m'.chain id = m''.chain id := by
  rw [← h.before.chain_eq hid, h'.before.chain_eq hid']

theorem Evaluates.append {rounds : List Round} {program : Node} {t : Task ω}
    (h : m.Evaluates rounds program t) (rest : List Round) :
    m.Evaluates (rounds ++ rest) program t := by
  induction h with
  | now hparse ht => exact .now hparse ht
  | later _ ih => exact .later ih

theorem Tended.afterRounds (hregistry : registry.ReturnsArguments) (hm : m.Tended registry π)
    {rounds : List Round} (hknown : ∀ program t, m.Evaluates rounds program t → π.task t) :
    (m.afterRounds rounds).Tended registry π ∧
      ∀ program t, m.Evaluates rounds program t → t.Ready registry π := by
  induction rounds generalizing m with
  | nil => exact ⟨hm, fun program t ht => nomatch ht⟩
  | cons r rest ih =>
    have hnodes : ∀ program, parse r.source = .ok program →
        ((Exec.nodes program.toplevel).left ⟨m, r.sink⟩).Tended registry π ∧
          ∀ t, Exec.Evaluates program.toplevel ⟨m, r.sink⟩ t → t.Ready registry π :=
      fun program hparse =>
        Exec.nodes_ready hregistry hm fun t ht => hknown program t (.now hparse ht)
    have hround : (m.afterRound r).Tended registry π := by
      cases hparse : parse r.source with
      | ok program => exact afterRound_of_parse hparse ▸ (hnodes program hparse).1
      | error e => exact (afterRound_of_error hparse).symm ▸ hm
    have hrest := ih hround fun program t ht => hknown program t (.later ht)
    refine ⟨hrest.1, fun program t ht => ?_⟩
    cases ht with
    | now hparse ht => exact (hnodes program hparse).2 t ht
    | later ht => exact hrest.2 program t ht

/-- What all expressions at top level have, all tasks have. -/
theorem Tended.carries (hregistry : registry.ReturnsArguments) (hm : m.Tended registry π)
    {rounds : List Round} (hknown : ∀ program t, m.Evaluates rounds program t → π.task t)
    {t : Task ω} (ht : m.Carries rounds t) : t.Ready registry π := by
  obtain ⟨program, s, hs, hreaches⟩ := ht
  exact ((hm.afterRounds hregistry hknown).2 program s hs).reaches hregistry hreaches

theorem Tended.passes (hregistry : registry.ReturnsArguments) (hm : m.Tended registry π)
    {rounds : List Round} (hknown : ∀ program t, m.Evaluates rounds program t → π.task t)
    (h : m.Passes rounds m') : m'.Tended registry π := by
  cases h with
  | between hdone =>
    obtain ⟨rest, rfl⟩ := hdone
    exact (hm.afterRounds hregistry fun program t ht => hknown program t (ht.append rest)).1
  | start ht => exact (hm.carries hregistry hknown ht).machine
  | finish ht => exact ((hm.carries hregistry hknown ht).course hregistry).1.final

theorem Live.vouched {rounds : List Round} {c : Closure} (hregistry : registry.ReturnsArguments)
    (hm : m.Tended registry π) (hready : ∀ t, m₀.Carries rounds t → t.Ready registry π)
    (h : Live m₀ rounds m c) : c.captured < m.scopes.size ∧ π.closure c := by
  cases h with
  | bound hmem => exact hm.bound _ _ hmem c rfl
  | returned ht hresult hbefore =>
    have hsound := ((hready _ ht).course hregistry).1
    exact (hsound.of_ok hresult).2.later hbefore c rfl

end Machine

end HostLisp
