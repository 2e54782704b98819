import HostLisp.Proofs.Evaluation

/-!
# Output with a limit

A sink with a limit takes what a run prints until it is full, and then the run fails.  Nothing else
about the run changes: what was evaluated is what would have been evaluated anyway, up to the
expression whose text did not fit.

So two runs of one program are compared, one with a limit and one without.  As long as everything
fits, the two sinks have taken the same bytes (`Sink.Keeps`).  One more text either keeps them so or
overruns the limit, and in the second case the sink has taken exactly the bytes below the limit
(`Sink.Keeps.write`).  The run without a limit goes on from there and adds to what it has written,
which does not change the bytes below the limit any more (`Exec.nodes_extends`).
-/

namespace HostLisp

variable {ω : Type}

/-! ## Writing -/

/-- A cut behind the first part leaves it whole. -/
theorem extract_append_of_size_le {a b : ByteArray} {n : Nat} (h : a.size ≤ n) :
    (a ++ b).extract 0 n = a ++ b.extract 0 (n - a.size) := by
  have ha : a.extract 0 n = a := by
    rw [ByteArray.ext_iff, ByteArray.data_extract]
    exact Array.extract_eq_self_of_le h
  rw [ByteArray.extract_append, ha, Nat.zero_sub]

/-- A cut within the first part leaves nothing of the second. -/
theorem extract_append_of_le_size {a b : ByteArray} {n : Nat} (h : n ≤ a.size) :
    (a ++ b).extract 0 n = a.extract 0 n := by
  rw [ByteArray.extract_append, Nat.zero_sub, Nat.sub_eq_zero_of_le h, ByteArray.extract_same,
    ByteArray.append_empty]

namespace Sink

variable {limit room : Nat} {free s : Sink} {text : String}

theorem write_of_unlimited (h : s.room = none) (text : String) :
    s.write text = (true, ⟨none, s.written ++ text.toUTF8⟩) := by
  rw [write, h]

theorem write_of_le (h : s.room = some room) (hfits : text.toUTF8.size ≤ room) :
    s.write text = (true, ⟨some (room - text.toUTF8.size), s.written ++ text.toUTF8⟩) := by
  rw [write, h]
  exact if_pos hfits

theorem write_of_lt (h : s.room = some room) (hover : room < text.toUTF8.size) :
    s.write text = (false, ⟨some 0, s.written ++ text.toUTF8.extract 0 room⟩) := by
  rw [write, h]
  exact if_neg (Nat.not_le.2 hover)

/-- A text may as well be written in two pieces. -/
theorem write_append (s : Sink) (first second : String) :
    s.write (first ++ second) =
      match s.write first with
      | (true, s) => s.write second
      | (false, s) => (false, s) := by
  have hbytes : (first ++ second).toUTF8 = first.toUTF8 ++ second.toUTF8 :=
    String.toByteArray_append
  have hsize : (first ++ second).toUTF8.size = first.toUTF8.size + second.toUTF8.size := by
    rw [hbytes, ByteArray.size_append]
  cases hroom : s.room with
  | none =>
    rw [write_of_unlimited hroom first]
    simp only
    rw [write_of_unlimited hroom, write_of_unlimited rfl, hbytes, ByteArray.append_assoc]
  | some room =>
    by_cases hfirst : first.toUTF8.size ≤ room
    · rw [write_of_le hroom hfirst]
      simp only
      by_cases hsecond : second.toUTF8.size ≤ room - first.toUTF8.size
      · rw [write_of_le rfl hsecond, write_of_le hroom (by omega), hsize, hbytes,
          ByteArray.append_assoc, Nat.sub_sub]
      · rw [write_of_lt rfl (Nat.lt_of_not_le hsecond), write_of_lt hroom (by omega), hbytes,
          extract_append_of_size_le hfirst, ByteArray.append_assoc]
    · have hover : room < first.toUTF8.size := Nat.lt_of_not_le hfirst
      rw [write_of_lt hroom hover, write_of_lt hroom (by omega), hbytes,
        extract_append_of_le_size (Nat.le_of_lt hover)]

/-- The sink has a limit, and so far it has taken all that one without a limit has. -/
structure Keeps (limit : Nat) (free s : Sink) : Prop where
  unlimited : free.room = none
  room : s.room = some (limit - free.written.size)
  written : s.written = free.written
  within : free.written.size ≤ limit

theorem keeps_start (limit : Nat) : Keeps limit .unlimited (.bounded limit) where
  unlimited := rfl
  room := rfl
  written := rfl
  within := Nat.zero_le limit

/-- After one more text the sink has still taken everything, or it has failed and taken all below
the limit. -/
theorem Keeps.write (h : Keeps limit free s) (text : String) :
    (∃ s', s.write text = (true, s') ∧ Keeps limit ⟨none, free.written ++ text.toUTF8⟩ s') ∨
    limit < (free.written ++ text.toUTF8).size ∧ ∃ s', s.write text = (false, s') ∧
      s'.written = (free.written ++ text.toUTF8).extract 0 limit := by
  have hwithin := h.within
  have hsize : (free.written ++ text.toUTF8).size = free.written.size + text.toUTF8.size :=
    ByteArray.size_append
  by_cases hfits : text.toUTF8.size ≤ limit - free.written.size
  · refine .inl ⟨_, write_of_le h.room hfits, rfl, ?_, ?_, ?_⟩
    · simp only [hsize, Nat.sub_sub]
    · simp only [h.written]
    · simp only [hsize]
      omega
  · refine .inr ⟨by omega, _, write_of_lt h.room (Nat.lt_of_not_le hfits), ?_⟩
    rw [h.written, extract_append_of_size_le hwithin]

end Sink

/-! ## Running -/

namespace Exec

variable {limit : Nat} {node : Node} {xs rest : List Node} {c c' : Console ω} {m m' : Machine ω}

theorem outcome_of_eq {x y : Exec ω Unit} (h : x c = y c') : x.outcome c = y.outcome c' := by
  rw [outcome, outcome, h]

theorem outcome_of_error {x : Exec ω Unit} {e : Error} (h : x c = .error e c') :
    x.outcome c = (some e, c') := by
  rw [outcome, h]

theorem print_append (first second : String) :
    (print (first ++ second) : Exec ω Unit) = print first >>= fun _ => print second := by
  funext c
  simp only [print, Sink.write_append, bind, EStateM.bind]
  rcases c.sink.write first with ⟨_ | _, sink⟩ <;> rfl

/-- A run without a limit adds to what was written before. -/
theorem nodes_extends (xs : List Node) (h : c.sink.room = none) :
    ∃ bytes, ((nodes xs).outcome c).2.sink.written = c.sink.written ++ bytes := by
  induction xs generalizing c with
  | nil => exact ⟨.empty, ByteArray.append_empty.symm⟩
  | cons node rest ih =>
    cases heval : eval node c.machine.globals c.machine with
    | error e m =>
      rw [outcome_of_error (nodes_cons_of_error heval rest)]
      exact ⟨.empty, ByteArray.append_empty.symm⟩
    | ok v m =>
      have hwrite := Sink.write_of_unlimited h v.printed
      rw [outcome_of_eq (nodes_cons_of_taken heval hwrite rest)]
      obtain ⟨bytes, hbytes⟩ := ih (c := ⟨m, ⟨none, c.sink.written ++ v.printed.toUTF8⟩⟩) rfl
      exact ⟨v.printed.toUTF8 ++ bytes, by rw [hbytes, ByteArray.append_assoc]⟩

/-- Up to some expression the run has written no more than the limit, but with that expression it
has; this leaves the machine `m`. -/
def Overruns (xs : List Node) (c : Console ω) (limit : Nat) (m : Machine ω) : Prop :=
  ∃ done node rest before after, xs = done ++ node :: rest ∧
    nodes done c = .ok () before ∧ before.sink.written.size ≤ limit ∧
    nodes (done ++ [node]) c = .ok () after ∧ limit < after.sink.written.size ∧ after.machine = m

theorem Overruns.cons {v : Value} {sink : Sink}
    (heval : eval node c.machine.globals c.machine = .ok v m')
    (hwrite : c.sink.write v.printed = (true, sink)) (h : Overruns xs ⟨m', sink⟩ limit m) :
    Overruns (node :: xs) c limit m := by
  obtain ⟨done, last, rest, before, after, rfl, hbefore, hwithin, hafter, hover, hm⟩ := h
  refine ⟨node :: done, last, rest, before, after, rfl, ?_, hwithin, ?_, hover, hm⟩
  · rw [nodes_cons_of_taken heval hwrite, hbefore]
  · rw [List.cons_append, nodes_cons_of_taken heval hwrite, hafter]

/-- The two runs come to the same, or the limit is overrun.  The induction is on the expressions,
and as long as it goes on the two sinks have taken the same. -/
theorem nodes_keeps (xs : List Node) {free s : Sink} (h : Sink.Keeps limit free s) :
    let whole := (nodes xs).outcome ⟨m, free⟩
    let cut := (nodes xs).outcome ⟨m, s⟩
    (cut.1 = whole.1 ∧ cut.2.machine = whole.2.machine ∧
      Sink.Keeps limit whole.2.sink cut.2.sink) ∨
    (limit < whole.2.sink.written.size ∧ cut.1 = some .sinkFull ∧
      cut.2.sink.written = whole.2.sink.written.extract 0 limit ∧
      Overruns xs ⟨m, free⟩ limit cut.2.machine) := by
  induction xs generalizing m free s with
  | nil => exact .inl ⟨rfl, rfl, h⟩
  | cons node rest ih =>
    intro whole cut
    cases heval : eval node m.globals m with
    | error e m' =>
      have hwhole : whole = (some e, ⟨m', free⟩) :=
        outcome_of_error (nodes_cons_of_error heval rest)
      have hcut : cut = (some e, ⟨m', s⟩) := outcome_of_error (nodes_cons_of_error heval rest)
      rw [hwhole, hcut]
      exact .inl ⟨rfl, rfl, h⟩
    | ok v m' =>
      have hfree := Sink.write_of_unlimited h.unlimited v.printed
      have hwhole : whole = (nodes rest).outcome _ :=
        outcome_of_eq (nodes_cons_of_taken (c := ⟨m, free⟩) heval hfree rest)
      rcases h.write v.printed with ⟨s', hs', hkeeps⟩ | ⟨hover, s', hs', hwritten⟩
      · have hcut : cut = (nodes rest).outcome _ :=
          outcome_of_eq (nodes_cons_of_taken (c := ⟨m, s⟩) heval hs' rest)
        rw [hwhole, hcut]
        rcases ih hkeeps with hsame | ⟨hsize, herror, hprefix, hoverruns⟩
        · exact .inl hsame
        · exact .inr ⟨hsize, herror, hprefix, hoverruns.cons heval hfree⟩
      · have hcut : cut = (some .sinkFull, ⟨m', s'⟩) :=
          outcome_of_error (nodes_cons_of_full (c := ⟨m, s⟩) heval hs' rest)
        let after : Console ω := ⟨m', ⟨none, free.written ++ v.printed.toUTF8⟩⟩
        obtain ⟨bytes, hbytes⟩ := nodes_extends (c := after) rest rfl
        rw [hwhole, hcut, hbytes]
        refine .inr ⟨?_, rfl, ?_, [], node, rest, ⟨m, free⟩, after, rfl, rfl, h.within, ?_, hover,
          rfl⟩
        · rw [ByteArray.size_append]
          exact Nat.lt_of_lt_of_le hover (Nat.le_add_right _ _)
        · rw [hwritten, extract_append_of_le_size (Nat.le_of_lt hover)]
        · exact nodes_cons_of_taken (c := ⟨m, free⟩) heval hfree []

end Exec

/-- With a sink that takes so many bytes a run writes the first bytes of what it writes without a
limit.  If that is not all, the run fails for want of room, and the last expression that it has
evaluated is the one that overran; otherwise the run is the same.  It does not matter whether a text
is printed at once or in pieces. -/
theorem bounded_output_is_a_prefix (program : Node) (m : Machine ω) (limit : Nat) :
    let whole := (exec program).outcome ⟨m, .unlimited⟩
    let cut := (exec program).outcome ⟨m, .bounded limit⟩
    let bytes := whole.2.sink.written
    cut.2.sink.written = bytes.extract 0 (min limit bytes.size) ∧
    cut.1 = (if limit < bytes.size then some .sinkFull else whole.1) ∧
    (bytes.size ≤ limit → cut.2.machine = whole.2.machine) ∧
    (limit < bytes.size → Exec.Overruns program.toplevel ⟨m, .unlimited⟩ limit cut.2.machine) ∧
    ∀ first second, (Exec.print (first ++ second) : Exec ω Unit) =
      Exec.print first >>= fun _ => Exec.print second := by
  intro whole cut bytes
  rcases Exec.nodes_keeps program.toplevel (m := m) (Sink.keeps_start limit) with
    ⟨herror, hmachine, hkeeps⟩ | ⟨hover, herror, hprefix, hoverruns⟩
  · have hwithin : bytes.size ≤ limit := hkeeps.within
    refine ⟨?_, ?_, fun _ => hmachine, fun hover => absurd hwithin (Nat.not_le.2 hover),
      Exec.print_append⟩
    · rw [Nat.min_eq_right hwithin, ByteArray.extract_zero_size]
      exact hkeeps.written
    · rw [if_neg (Nat.not_lt.2 hwithin)]
      exact herror
  · have hlimit : limit < bytes.size := hover
    refine ⟨?_, ?_, fun hle => absurd hlimit (Nat.not_lt.2 hle), fun _ => hoverruns,
      Exec.print_append⟩
    · rw [Nat.min_eq_left (Nat.le_of_lt hlimit)]
      exact hprefix
    · rw [if_pos hlimit]
      exact herror

/-- The program `(define n 41) "né" (+ n 1) (define n 7)`, which fails in the end. -/
def Node.printing : Node :=
  .list [.define "n" (.number ⟨"41", 41⟩), .str "né",
    .call "+" [.var "n", .number ⟨"1", 1⟩], .define "n" (.number ⟨"7", 7⟩)]

/-- With room for four bytes the sum is cut in the middle, and the run does not get as far as its
own error.  Six bytes are enough for all of it. -/
theorem printing_is_cut :
    let m : Machine Unit := .new Library.registry ()
    let whole := (exec Node.printing).outcome ⟨m, .unlimited⟩
    let cut := (exec Node.printing).outcome ⟨m, .bounded 4⟩
    let full := (exec Node.printing).outcome ⟨m, .bounded 6⟩
    (cut.2.sink.written = "né4".toUTF8 ∧ cut.1 = some .sinkFull ∧ cut.2.machine.calls = 1 ∧
      Exec.Overruns Node.printing.toplevel ⟨m, .unlimited⟩ 4 cut.2.machine) ∧
    (full.2.sink.written = "né42\n".toUTF8 ∧ full.1 = whole.1 ∧
      full.2.machine = whole.2.machine) := by
  intro m whole cut full
  have hbytes : whole.2.sink.written = "né42\n".toUTF8 := by decide +kernel
  have hover : 4 < whole.2.sink.written.size := by decide +kernel
  have hfits : whole.2.sink.written.size ≤ 6 := by decide +kernel
  obtain ⟨hwritten, herror, -, hoverruns, -⟩ := bounded_output_is_a_prefix Node.printing m 4
  obtain ⟨hwritten', herror', hmachine, -⟩ := bounded_output_is_a_prefix Node.printing m 6
  refine ⟨⟨?_, herror.trans (if_pos hover), by decide +kernel, hoverruns hover⟩,
    ?_, herror'.trans (if_neg (Nat.not_lt.2 hfits)), hmachine hfits⟩
  · rw [hwritten, hbytes]
    decide +kernel
  · rw [hwritten', hbytes]
    decide +kernel

end HostLisp
