import HostLisp.Proofs.Descent

/-!
# No token is lost, and none that was not examined matters

A reader can be asked for a token or for a tree, again and again, and a request that fails leaves it
in the middle of a form.  Still it only ever moves forward: what is pending is what was pending
before, less some tokens at the front.  A request is decided by the tokens that it takes and the one
that it leaves in the slot (`Examines`), so tokens behind these cannot change what it comes to; only
if they run out, more of them would have made a difference.
-/

namespace HostLisp.Descent

open Parse

/-! ## What was examined decides -/

variable {α β : Type}

/-- From the tokens `ts` reading takes those in `consumed`, and may leave the next one in the slot.
Unless the tokens have run out, it halts in the same way whatever is behind them. -/
structure Examines (f : List Token → Halt α) (ts consumed : List Token) : Prop where
  split : ts = consumed ++ ((f ts).lookahead.toList ++ (f ts).unread)
  clean : ∀ t, (f ts).lookahead = some t → t.kind ≠ .error
  decides : (f ts).result ≠ .error (.fatal .tokensClosed) → ∀ rest,
    f (consumed ++ ((f ts).lookahead.toList ++ rest)) = ⟨(f ts).result, (f ts).lookahead, rest⟩

section Examines

variable {ts consumed rest : List Token} {t : Token} {k : Token → List Token → Halt α}

theorem examines_first_nil : Examines (first k) [] [] where
  split := rfl
  clean _ ht := nomatch ht
  decides h := absurd rfl h

/-- Reading that halts in the same way whatever is behind some tokens. -/
theorem examines_of_decided {f : List Token → Halt α} {result : Except Error α}
    (consumed : List Token) (slot : Option Token) (hclean : ∀ t, slot = some t → t.kind ≠ .error)
    (hf : ∀ rest, f (consumed ++ (slot.toList ++ rest)) = ⟨result, slot, rest⟩)
    (rest : List Token) : Examines f (consumed ++ (slot.toList ++ rest)) consumed := by
  constructor
  · rw [hf]
  · rw [hf]
    exact hclean
  · intro _ rest'
    rw [hf]
    exact hf rest'

/-- A token that ends reading and is taken. -/
theorem examines_first_stop (result : Except Error α)
    (hk : ∀ rest, first k (t :: rest) = ⟨result, none, rest⟩) :
    Examines (first k) (t :: rest) [t] :=
  examines_of_decided [t] none (fun _ ht => nomatch ht) hk rest

/-- A token that ends reading and is left. -/
theorem examines_first_leave (result : Except Error α) (hkind : t.kind ≠ .error)
    (hk : ∀ rest, k t rest = ⟨result, some t, rest⟩) : Examines (first k) (t :: rest) [] := by
  have hclean : ∀ t', some t = some t' → t'.kind ≠ .error := by
    rintro t' ⟨⟩
    exact hkind
  exact examines_of_decided [] (some t) hclean (fun rest => (if_neg hkind).trans (hk rest)) rest

/-- A token that is taken before others. -/
theorem Examines.cons (hkind : t.kind ≠ .error) (h : Examines (k t) rest consumed) :
    Examines (first k) (t :: rest) (t :: consumed) := by
  have hfirst : ∀ rest, first k (t :: rest) = k t rest := fun rest => if_neg hkind
  constructor
  · rw [hfirst, List.cons_append, ← h.split]
  · rw [hfirst]
    exact h.clean
  · intro hresult rest'
    rw [hfirst] at hresult ⊢
    rw [List.cons_append, hfirst]
    exact h.decides hresult rest'

/-- Reading that begins with a token, given what it does with that. -/
theorem exists_examines_first
    (hk : ∀ t rest, ts = t :: rest → t.kind ≠ .error →
      ∃ consumed, Examines (first k) (t :: rest) consumed) :
    ∃ consumed, Examines (first k) ts consumed := by
  cases ts with
  | nil => exact ⟨[], examines_first_nil⟩
  | cons t rest =>
    by_cases hkind : t.kind = .error
    · exact ⟨[t], examines_first_stop _ fun rest => if_pos hkind⟩
    · exact hk t rest rfl hkind

theorem exists_examines_halt (limit : Nat) (goal : Goal) (holes : List Hole) (ts : List Token) :
    ∃ consumed, Examines (halt limit goal holes) ts consumed := by
  induction ts generalizing goal holes with
  | nil => exact ⟨[], halt_eq_first limit goal holes ▸ examines_first_nil⟩
  | cons t rest ih =>
    rw [halt_eq_first]
    refine exists_examines_first fun t' rest' hts hkind => ?_
    obtain ⟨rfl, rfl⟩ := List.cons.inj hts
    cases hstep : step limit goal holes t with
    | stop result =>
      refine ⟨[t], examines_first_stop (result.mapError .parse) fun rest => ?_⟩
      rw [first, if_neg hkind, hstep]
      rfl
    | leave result =>
      refine ⟨[], examines_first_leave (result.mapError .parse) hkind fun rest => ?_⟩
      rw [hstep]
      rfl
    | shift goal' holes' =>
      obtain ⟨consumed, hconsumed⟩ := ih goal' holes'
      refine ⟨t :: consumed, .cons hkind ?_⟩
      rw [hstep]
      exact hconsumed

theorem exists_examines_call (ts : List Token) : ∃ consumed, Examines callHalt ts consumed := by
  refine exists_examines_first fun t rest _ hkind => ?_
  by_cases hopen : t.kind = .leftParen
  · obtain ⟨consumed, hconsumed⟩ := exists_examines_halt (maxNesting + 1) .head [] rest
    refine ⟨t :: consumed, .cons hkind ?_⟩
    simpa only [if_pos hopen] using hconsumed
  · refine ⟨[t], examines_first_stop (.error (.parse (unexpected .leftParen "call" t))) ?_⟩
    intro rest
    rw [first, if_neg hkind, if_neg hopen]

end Examines

/-! ## Operations -/

section Machine

variable (ts : List Token)

theorem parseNext_eq :
    Parse.next ts = (first (fun t rest => ⟨.ok t, none, rest⟩) ts).merged := by
  cases ts with
  | nil => rfl
  | cons t rest =>
    rw [Parse.next, first]
    split <;> rfl

theorem parsePeek_eq :
    Parse.peek ts = (first (fun t rest => ⟨.ok t, some t, rest⟩) ts).merged := by
  rw [Parse.peek, parseNext_eq]
  rcases first_cases ts with ⟨e, rest, hfirst⟩ | ⟨t, rest, rfl, -, hfirst⟩
  all_goals
    rw [hfirst, hfirst]
    rfl

theorem parseExpect_eq (kind : TokenKind) (context : String) :
    Parse.expect kind context ts = (expectHalt kind context ts).merged := by
  rw [Parse.expect, parseNext_eq, expectHalt]
  rcases first_cases ts with ⟨e, rest, hfirst⟩ | ⟨t, rest, -, -, hfirst⟩
  · rw [hfirst, hfirst]
    rfl
  · rw [hfirst, hfirst]
    dsimp only [Halt.merged]
    split <;> rfl

theorem parseCall_eq : Parse.call ts = (callHalt ts).merged := by
  rw [Parse.call, parseExpect_eq, expectHalt, callHalt]
  rcases first_cases ts with ⟨e, rest, hfirst⟩ | ⟨t, rest, -, -, hfirst⟩
  · rw [hfirst, hfirst]
    rfl
  · rw [hfirst, hfirst]
    by_cases hopen : t.kind = .leftParen
    · rw [if_pos hopen, if_pos hopen, ← run_eq_halt]
      rfl
    · rw [if_neg hopen, if_neg hopen]
      rfl

end Machine

/-- No operation is going on. -/
structure Reader.Idle (r : Reader) : Prop where
  clean : r.Clean
  depth_eq : r.depth = 0

/-- What a reader can be asked for. -/
inductive Operation where
  | next
  | peek
  | expect (kind : TokenKind) (context : String)
  | expression
  | call
  | program

/-- What a reader answers. -/
inductive Answer where
  | token (t : Token)
  | node (node : Node)

/-- Another result of the same halt. -/
def Halt.map (g : α → β) (h : Halt α) : Halt β := { h with result := h.result.map g }

namespace Operation

/-- The operation on a reader. -/
def perform (rounds : Nat) : Operation → Reading Answer
  | .next => Answer.token <$> Descent.next
  | .peek => Answer.token <$> Descent.peek
  | .expect kind context => Answer.token <$> Descent.expect kind context
  | .expression => Answer.node <$> Descent.expression (form rounds)
  | .call => Answer.node <$> Descent.call (form rounds)
  | .program => Answer.node <$> Descent.program rounds []

/-- What the operation comes to on a reader, with any number of rounds that exceeds its tokens. -/
def Yields (op : Operation) (r : Reader) (result : Except Failure Answer) (r' : Reader) : Prop :=
  ∀ rounds, r.pending.length < rounds → op.perform rounds r = some (result, r')

/-- The operation on pending tokens. -/
def onPending : Operation → List Token → Outcome Answer
  | .next, ts => (Parse.next ts).map (.map .token) id
  | .peek, ts => (Parse.peek ts).map (.map .token) id
  | .expect kind context, ts => (Parse.expect kind context ts).map (.map .token) id
  | .expression, ts => (Parse.expression ts).map (.map .node) id
  | .call, ts => (Parse.call ts).map (.map .node) id
  | .program, ts => (Parse.program ts).map (.map .node) id

/-- Where the operation halts. -/
def halts : Operation → List Token → Halt Answer
  | .next, ts => (first (fun t rest => ⟨.ok t, none, rest⟩) ts).map .token
  | .peek, ts => (first (fun t rest => ⟨.ok t, some t, rest⟩) ts).map .token
  | .expect kind context, ts => (expectHalt kind context ts).map .token
  | .expression, ts => (halt maxNesting .operand [] ts).map .node
  | .call, ts => (callHalt ts).map .node
  | .program, ts => (halt maxNesting .operand [.program []] ts).map .node

end Operation

theorem Halt.outcome_map {x : Reading α} {r : Reader} {h : Halt α} {depth : Nat}
    (hx : x r = h.outcome depth) (g : α → β) : (g <$> x) r = (h.map g).outcome depth := by
  change (x r).bind _ = _
  rw [hx]
  obtain ⟨result, lookahead, unread⟩ := h
  cases result <;> rfl

theorem Examines.map {f : List Token → Halt α} {ts consumed : List Token}
    (h : Examines f ts consumed) (g : α → β) : Examines (fun ts => (f ts).map g) ts consumed where
  split := h.split
  clean := h.clean
  decides hresult rest := by
    have hresult' : (f ts).result ≠ .error (.fatal .tokensClosed) := by
      intro hclosed
      refine hresult ?_
      rw [Halt.map, hclosed]
      rfl
    exact congrArg (Halt.map g) (h.decides hresult' rest)

namespace Operation

theorem perform_eq (op : Operation) {r : Reader} (hr : r.Idle) {rounds : Nat}
    (hrounds : r.pending.length < rounds) :
    op.perform rounds r = (op.halts r.pending).outcome 0 := by
  obtain ⟨hclean, hdepth⟩ := hr
  cases op with
  | next => exact Halt.outcome_map (hdepth ▸ next_eq hclean) _
  | peek => exact Halt.outcome_map (hdepth ▸ peek_eq hclean) _
  | expect kind context => exact Halt.outcome_map (hdepth ▸ expect_eq kind context hclean) _
  | expression => exact Halt.outcome_map (expression_eq hclean hdepth hrounds) _
  | call => exact Halt.outcome_map (call_eq hclean hdepth hrounds) _
  | program => exact Halt.outcome_map (program_eq hclean hdepth hrounds []) _

/-- Every operation comes to something. -/
theorem yields_halts (op : Operation) {r : Reader} (hr : r.Idle) :
    op.Yields r ((op.halts r.pending).result.mapError .reported)
      ⟨(op.halts r.pending).lookahead, (op.halts r.pending).unread, 0⟩ :=
  fun _ hrounds => op.perform_eq hr hrounds

theorem Yields.unique {op : Operation} {r r₁ r₂ : Reader} {result₁ result₂ : Except Failure Answer}
    (h₁ : op.Yields r result₁ r₁) (h₂ : op.Yields r result₂ r₂) : result₁ = result₂ ∧ r₁ = r₂ := by
  have hlt := Nat.lt_succ_self r.pending.length
  exact Prod.mk.inj (Option.some.inj ((h₁ _ hlt).symm.trans (h₂ _ hlt)))

theorem onPending_eq (op : Operation) (ts : List Token) :
    op.onPending ts = (op.halts ts).merged := by
  cases op with
  | next => rw [onPending, parseNext_eq]; rfl
  | peek => rw [onPending, parsePeek_eq]; rfl
  | expect kind context => rw [onPending, parseExpect_eq]; rfl
  | expression => rw [onPending, Parse.expression, run_eq_halt]; rfl
  | call => rw [onPending, parseCall_eq]; rfl
  | program => rw [onPending, Parse.program, run_eq_halt]; rfl

theorem exists_examines (op : Operation) (ts : List Token) :
    ∃ consumed, Examines op.halts ts consumed := by
  cases op with
  | next =>
    have hnext : ∃ consumed, Examines (first fun t rest => ⟨.ok t, none, rest⟩) ts consumed :=
      exists_examines_first fun t rest _ hkind =>
        ⟨[t], examines_first_stop (.ok t) fun rest => if_neg hkind⟩
    exact hnext.imp fun _ h => h.map Answer.token
  | peek =>
    have hpeek : ∃ consumed, Examines (first fun t rest => ⟨.ok t, some t, rest⟩) ts consumed :=
      exists_examines_first fun t rest _ hkind =>
        ⟨[], examines_first_leave (.ok t) hkind fun rest => rfl⟩
    exact hpeek.imp fun _ h => h.map Answer.token
  | expect kind context =>
    have hexpect : ∃ consumed, Examines (expectHalt kind context) ts consumed :=
      exists_examines_first fun t rest _ hkind =>
        ⟨[t], examines_first_stop _ fun rest => if_neg hkind⟩
    exact hexpect.imp fun _ h => h.map Answer.token
  | expression =>
    exact (exists_examines_halt maxNesting .operand [] ts).imp fun _ h => h.map Answer.node
  | call => exact (exists_examines_call ts).imp fun _ h => h.map Answer.node
  | program =>
    exact (exists_examines_halt maxNesting .operand [.program []] ts).imp fun _ h =>
      h.map Answer.node

/-- A token that was looked at is still the first one. -/
theorem onPending_peek {ts rest : List Token} {answer : Answer}
    (h : onPending .peek ts = (.ok answer, rest)) : rest = ts := by
  rw [onPending, parsePeek_eq] at h
  rcases first_cases ts with ⟨e, rest', hfirst⟩ | ⟨t, rest', rfl, -, hfirst⟩
  · rw [hfirst] at h
    cases h
  · rw [hfirst] at h
    exact (Prod.mk.inj h).2.symm

end Operation

/-! ## Sequences of operations -/

/-- What one operation comes to, and what it does to the pending tokens. -/
structure Performs (op : Operation) (r : Reader) (result : Except Error Answer) (r' : Reader)
    (consumed : List Token) : Prop where
  yields : op.Yields r (result.mapError .reported) r'
  idle : r'.Idle
  split : r.pending = consumed ++ r'.pending
  onPending_eq : op.onPending r.pending = (result, r'.pending)
  decides : result ≠ .error (.fatal .tokensClosed) → ∀ s : Reader, s.Idle →
    consumed ++ r'.lookahead.toList <+: s.pending →
    ∃ s', op.Yields s (result.mapError .reported) s' ∧ s'.lookahead = r'.lookahead ∧
      s.pending = consumed ++ s'.pending

theorem exists_performs (op : Operation) {r : Reader} (hr : r.Idle) :
    ∃ result r' consumed, Performs op r result r' consumed := by
  obtain ⟨consumed, hexamines⟩ := op.exists_examines r.pending
  refine ⟨_, _, consumed, op.yields_halts hr, ⟨hexamines.clean, rfl⟩, hexamines.split,
    op.onPending_eq r.pending, ?_⟩
  rintro hresult s hs ⟨rest, hrest⟩
  rw [List.append_assoc] at hrest
  have hhalts := hexamines.decides hresult rest
  rw [hrest] at hhalts
  have hyields := op.yields_halts hs
  rw [hhalts] at hyields
  exact ⟨_, hyields, rfl, hrest.symm⟩

/-- The readers that operations lead to, whether they succeed or fail. -/
inductive Reached (ts : List Token) : Reader → Prop where
  | new : Reached ts (.new ts)
  | after {r r' : Reader} {op : Operation} {result : Except Failure Answer} (h : Reached ts r)
    (hop : op.Yields r result r') : Reached ts r'

theorem Reached.idle_suffix {ts : List Token} {r : Reader} (h : Reached ts r) :
    r.Idle ∧ r.pending <:+ ts := by
  induction h with
  | new => exact ⟨⟨Reader.clean_of_none, rfl⟩, List.suffix_refl ts⟩
  | @after r r' op result _ hop ih =>
    obtain ⟨result', r'', consumed, hperforms⟩ := exists_performs op ih.1
    obtain ⟨-, rfl⟩ := hop.unique hperforms.yields
    have hsuffix : r'.pending <:+ r.pending := ⟨consumed, hperforms.split.symm⟩
    exact ⟨hperforms.idle, hsuffix.trans ih.2⟩

/-- After any operations, failed ones among them, what is pending are the last tokens of the source
and the count is zero.  Every further operation ends without handing a token back to a slot that is
taken, and does what the machine does.  It takes tokens from the front, and none if it looks at one
and succeeds.  Unless the tokens run out, what it takes and what it leaves in the slot decide what
it does wherever they are the first tokens pending. -/
theorem operations_keep_pending_tokens (ts : List Token) (r : Reader) (h : Reached ts r) :
    r.depth = 0 ∧ r.pending <:+ ts ∧
    ∀ op : Operation, ∃ (result : Except Error Answer) (r' : Reader) (consumed : List Token),
      op.Yields r (result.mapError .reported) r' ∧ r'.depth = 0 ∧
      r.pending = consumed ++ r'.pending ∧ op.onPending r.pending = (result, r'.pending) ∧
      (op = .peek → (∃ answer, result = .ok answer) → r'.pending = r.pending) ∧
      (result ≠ .error (.fatal .tokensClosed) → ∀ (us : List Token) (s : Reader), Reached us s →
        consumed ++ r'.lookahead.toList <+: s.pending →
        ∃ s', op.Yields s (result.mapError .reported) s' ∧ s'.lookahead = r'.lookahead ∧
          s.pending = consumed ++ s'.pending) := by
  obtain ⟨hidle, hsuffix⟩ := h.idle_suffix
  refine ⟨hidle.depth_eq, hsuffix, fun op => ?_⟩
  obtain ⟨result, r', consumed, hperforms⟩ := exists_performs op hidle
  refine ⟨result, r', consumed, hperforms.yields, hperforms.idle.depth_eq, hperforms.split,
    hperforms.onPending_eq, ?_, ?_⟩
  · rintro rfl ⟨answer, rfl⟩
    exact Operation.onPending_peek hperforms.onPending_eq
  · intro hresult us s hs
    exact hperforms.decides hresult s hs.idle_suffix.1

/-- The tokens of a `lambda` whose body is a variable. -/
def bareBody : List Token :=
  [⟨.leftParen, "(", 0, 1, 1⟩, ⟨.call, "lambda", 1, 7, 1⟩, ⟨.leftParen, "(", 8, 9, 1⟩,
    ⟨.rightParen, ")", 9, 10, 1⟩, ⟨.word, "y", 11, 12, 1⟩, ⟨.rightParen, ")", 12, 13, 1⟩]

/-- Its body is left in the slot. -/
def bareBodyLeft : Reader :=
  ⟨some ⟨.word, "y", 11, 12, 1⟩, [⟨.rightParen, ")", 12, 13, 1⟩], 0⟩

theorem reached_bareBodyLeft : Reached bareBody bareBodyLeft := by
  have hfails : Operation.expression.Yields (.new bareBody)
      (.error (.reported (.parse (.lambdaBody 1)))) bareBodyLeft :=
    Operation.yields_halts .expression ⟨Reader.clean_of_none, rfl⟩
  exact .after .new hfails

/-- After the failure the body is read by itself, in the same way as without the parenthesis that
is still there. -/
theorem bare_body_is_read_next :
    Reached bareBody bareBodyLeft ∧
    Operation.expression.Yields bareBodyLeft (.ok (.node (.var "y")))
      ⟨none, [⟨.rightParen, ")", 12, 13, 1⟩], 0⟩ ∧
    ∃ s, Operation.expression.Yields (.new [⟨.word, "y", 11, 12, 1⟩]) (.ok (.node (.var "y"))) s ∧
      s.pending = [] := by
  have hread : Operation.expression.Yields bareBodyLeft (.ok (.node (.var "y")))
      ⟨none, [⟨.rightParen, ")", 12, 13, 1⟩], 0⟩ :=
    Operation.yields_halts .expression reached_bareBodyLeft.idle_suffix.1
  obtain ⟨-, -, hops⟩ := operations_keep_pending_tokens bareBody bareBodyLeft reached_bareBodyLeft
  obtain ⟨result, r', consumed, hyields, -, hsplit, hmachine, -, hdecides⟩ := hops .expression
  obtain ⟨rfl, -⟩ : .ok (.node (.var "y")) = result ∧ _ := Prod.mk.inj hmachine
  obtain ⟨-, rfl⟩ := hyields.unique hread
  obtain rfl : [⟨.word, "y", 11, 12, 1⟩] = consumed := List.append_cancel_right hsplit
  obtain ⟨s, hs, -, hpending⟩ := hdecides nofun _ (.new [⟨.word, "y", 11, 12, 1⟩]) .new ⟨[], rfl⟩
  exact ⟨reached_bareBodyLeft, hread, s, hs, (List.cons.inj hpending).2.symm⟩

end HostLisp.Descent
