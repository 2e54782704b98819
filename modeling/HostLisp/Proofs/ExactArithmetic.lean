import HostLisp.Proofs.Library
import Mathlib.Algebra.BigOperators.Group.List.Basic
import Mathlib.Algebra.Ring.Int.Defs
import Mathlib.Data.List.Infix

/-!
# Integer functions are exact

An integer function of the library returns the exact result, or it fails because some result on the
way is no 64-bit integer.  Results are never wrapped around.  What is said here is said of the host
functions that programs call (`Gives`), so the texts of the failures are part of it.

Sums, products and differences are one argument (`foldlM_exact`): from left to right, each partial
result is the exact one as long as all of them are in range, and the first that is not ends the
call.  It is therefore not enough that the final result is in range, and whether a sum succeeds
depends on the order of its operands.  What it comes to does not.

Quotient and remainder look at their operands separately, and the remainder is always in range.
They still succeed on the same operands, because the least integer by minus one is the only quotient
that is out of range (`inRange_tdiv_iff`).  Together they are the one division with a remainder that
goes toward zero (`Truncates`).
-/

namespace HostLisp.Library

/-! ## Results in range -/

/-- The integer is a 64-bit one. -/
def InRange (n : Int) : Prop := -2 ^ 63 ≤ n ∧ n < 2 ^ 63

instance (n : Int) : Decidable (InRange n) := inferInstanceAs (Decidable (_ ∧ _))

theorem inRange_toInt (i : Int64) : InRange i.toInt := ⟨i.le_toInt, i.toInt_lt⟩

/-- A result is the exact integer if `fits` holds, and otherwise an overflow. -/
def ExactIf (fits : Prop) (n : Int) (result : Except Failure Int64) : Prop :=
  (fits ∧ ∃ i, result = .ok i ∧ i.toInt = n) ∨ (¬ fits ∧ result = .error .overflow)

theorem exactIf_exact (n : Int) : ExactIf (InRange n) n (exact n) := by
  have hmin : Int64.minValue.toInt = -2 ^ 63 := by decide
  have hmax : Int64.maxValue.toInt = 2 ^ 63 - 1 := by decide
  have hrange : (Int64.minValue.toInt ≤ n ∧ n ≤ Int64.maxValue.toInt) ↔ InRange n := by
    rw [hmin, hmax, InRange]
    omega
  unfold exact
  rw [if_congr hrange rfl rfl]
  by_cases hn : InRange n
  · rw [if_pos hn]
    exact .inl ⟨hn, _, rfl, Int64.toInt_ofInt_of_le hn.1 hn.2⟩
  · rw [if_neg hn]
    exact .inr ⟨hn, rfl⟩

theorem ExactIf.congr {fits fits' : Prop} {n n' : Int} {result : Except Failure Int64}
    (h : ExactIf fits n result) (hfits : fits ↔ fits') (hn : n = n') : ExactIf fits' n' result := by
  obtain rfl := propext hfits
  obtain rfl := hn
  exact h

section ExactIf

variable {fits : Prop} {n : Int} {result : Except Failure Int64}

theorem ExactIf.exists_ok (h : ExactIf fits n result) (hfits : fits) : ∃ i, result = .ok i := by
  rcases h with ⟨-, i, hi, -⟩ | ⟨hout, -⟩
  · exact ⟨i, hi⟩
  · exact absurd hfits hout

theorem ExactIf.of_ok (h : ExactIf fits n result) {i : Int64} (hi : result = .ok i) :
    fits ∧ i.toInt = n := by
  rcases h with ⟨hfits, j, rfl, hj⟩ | ⟨-, rfl⟩
  · obtain rfl := Except.ok.inj hi
    exact ⟨hfits, hj⟩
  · cases hi

theorem ExactIf.eq_error_iff (h : ExactIf fits n result) {cause : Failure} :
    result = .error cause ↔ ¬ fits ∧ cause = .overflow := by
  rcases h with ⟨hfits, i, rfl, -⟩ | ⟨hout, rfl⟩
  · simp [hfits]
  · simp [hout, eq_comm]

end ExactIf

/-! ## From left to right -/

section Fold

variable (op : Int → Int → Int)

/-- The exact result of an operation on a first integer and all operands. -/
def accumulated (start : Int) (operands : List Int64) : Int :=
  operands.foldl (fun n i => op n i.toInt) start

/-- All partial results are in range, the first integer included. -/
def StaysInRange (start : Int) (operands : List Int64) : Prop :=
  ∀ taken, taken <+: operands → InRange (accumulated op start taken)

variable {op}

theorem staysInRange_nil {start : Int} : StaysInRange op start [] ↔ InRange start := by
  unfold StaysInRange
  simp only [List.prefix_nil, forall_eq]
  rfl

theorem staysInRange_cons {start : Int} {i : Int64} {rest : List Int64} :
    StaysInRange op start (i :: rest) ↔
      InRange start ∧ StaysInRange op (op start i.toInt) rest := by
  constructor
  · intro h
    refine ⟨h [] List.nil_prefix, fun taken htaken => ?_⟩
    exact h (i :: taken) (List.cons_prefix_cons.2 ⟨rfl, htaken⟩)
  · rintro ⟨hstart, hrest⟩ taken htaken
    rcases List.prefix_cons_iff.1 htaken with rfl | ⟨others, rfl, hothers⟩
    · exact hstart
    · exact hrest others hothers

theorem StaysInRange.start {start : Int} {operands : List Int64}
    (h : StaysInRange op start operands) : InRange start := h [] List.nil_prefix

variable (op)

/-- The result so far is the exact one, and the next operand either keeps it in range or ends the
call. -/
theorem foldlM_exact (start : Int64) (operands : List Int64) :
    ExactIf (StaysInRange op start.toInt operands) (accumulated op start.toInt operands)
      (operands.foldlM (fun total i => exact (op total.toInt i.toInt)) start) := by
  induction operands generalizing start with
  | nil =>
    refine .inl ⟨?_, start, rfl, rfl⟩
    exact staysInRange_nil.2 (inRange_toInt start)
  | cons i rest ih =>
    -- The first step is exact, so the rest starts from the exact partial result.
    rw [List.foldlM_cons]
    rcases exactIf_exact (op start.toInt i.toInt) with ⟨-, next, hnext, hvalue⟩ | ⟨hout, hnext⟩
    · have hfits : StaysInRange op next.toInt rest ↔
          StaysInRange op start.toInt (i :: rest) := by
        rw [staysInRange_cons, and_iff_right (inRange_toInt start), hvalue]
      have hresult : accumulated op next.toInt rest = accumulated op start.toInt (i :: rest) := by
        rw [hvalue]
        rfl
      rw [hnext]
      exact (ih next).congr hfits hresult
    · rw [hnext]
      exact .inr ⟨fun h => hout (staysInRange_cons.1 h).2.start, rfl⟩

end Fold

theorem accumulated_add (operands : List Int64) :
    accumulated (· + ·) 0 operands = (operands.map Int64.toInt).sum := by
  rw [List.sum_eq_foldl, List.foldl_map]
  rfl

theorem accumulated_mul (operands : List Int64) :
    accumulated (· * ·) 1 operands = (operands.map Int64.toInt).prod := by
  rw [List.prod_eq_foldl, List.foldl_map]
  rfl

theorem accumulated_sub (start : Int) (operands : List Int64) :
    accumulated (· - ·) start operands = start - (operands.map Int64.toInt).sum := by
  induction operands generalizing start with
  | nil => exact (Int.sub_zero start).symm
  | cons i rest ih =>
    rw [List.map_cons, List.sum_cons, ← Int.sub_sub, ← ih]
    rfl

theorem exactIf_sum (operands : List Int64) :
    ExactIf (∀ taken, taken <+: operands → InRange (taken.map Int64.toInt).sum)
      (operands.map Int64.toInt).sum (sum operands) := by
  simp only [← accumulated_add]
  exact foldlM_exact (· + ·) 0 operands

theorem exactIf_product (operands : List Int64) :
    ExactIf (∀ taken, taken <+: operands → InRange (taken.map Int64.toInt).prod)
      (operands.map Int64.toInt).prod (product operands) := by
  simp only [← accumulated_mul]
  exact foldlM_exact (· * ·) 1 operands

theorem exactIf_difference_single (a : Int64) :
    ExactIf (a ≠ Int64.minValue) (-a.toInt) (difference [a]) := by
  refine (exactIf_exact (-a.toInt)).congr ?_ rfl
  have hmin : a ≠ Int64.minValue ↔ a.toInt ≠ -2 ^ 63 := Int64.toInt_inj.not.symm
  obtain ⟨hlower, hupper⟩ := inRange_toInt a
  rw [hmin, InRange]
  omega

theorem exactIf_difference {rest : List Int64} (first : Int64) (hrest : rest ≠ []) :
    ExactIf (∀ taken, taken <+: rest → InRange (first.toInt - (taken.map Int64.toInt).sum))
      (first.toInt - (rest.map Int64.toInt).sum) (difference (first :: rest)) := by
  obtain ⟨second, others, rfl⟩ := List.exists_cons_of_ne_nil hrest
  simp only [← accumulated_sub]
  exact foldlM_exact (· - ·) first (second :: others)

/-! ## What programs are given -/

/-- On these integers the library function of the name gives the result, and leaves the host as it
is. -/
def Gives (name : String) (operands : List Int64) (result : Except String Value) : Prop :=
  ∀ (ω : Type) (world : ω), ∃ f : HostFunction ω, registry.get? name = some f ∧
    f.call (operands.map .int) world = (result, world)

theorem ints_map (operands : List Int64) : ints (operands.map .int) = .ok operands := by
  unfold ints
  induction operands with
  | nil => rfl
  | cons i rest ih =>
    rw [List.map_cons, List.mapM_cons, ih]
    rfl

/-- The function of the name computes `result` from the operands. -/
def Answers (name : String) (operands : List Int64) (result : Except Failure Int64) : Prop :=
  ∃ e ∈ entries, e.name = name ∧ e.call (operands.map .int) = result.map Value.int

section Answers

variable {name : String} {operands operands' : List Int64} {result : Except Failure Int64}

theorem Answers.gives_iff (h : Answers name operands result) {given : Except String Value} :
    Gives name operands given ↔ (result.map Value.int).mapError Failure.message = given := by
  obtain ⟨e, he, rfl, hcall⟩ := h
  have hhost : ∀ (ω : Type) (world : ω),
      (e.toHost : HostFunction ω).call (operands.map .int) world =
        ((result.map Value.int).mapError Failure.message, world) := by
    intro ω world
    rw [← hcall]
    rfl
  constructor
  · intro hgives
    -- No result depends on the host, so any state of it will do.
    obtain ⟨f, hf, hgiven⟩ := hgives Unit ()
    obtain rfl := Option.some.inj ((registry_get?_of_mem he).symm.trans hf)
    rw [hhost] at hgiven
    exact (Prod.mk.inj hgiven).1
  · rintro rfl ω world
    exact ⟨e.toHost, registry_get?_of_mem he, hhost ω world⟩

theorem Answers.gives_ok_iff (h : Answers name operands result) {v : Value} :
    Gives name operands (.ok v) ↔ ∃ i, result = .ok i ∧ v = .int i := by
  rw [h.gives_iff]
  cases result with
  | ok i => simp [Except.map, Except.mapError, eq_comm]
  | error cause => simp [Except.map, Except.mapError]

theorem Answers.gives_error_iff (h : Answers name operands result) {message : String} :
    Gives name operands (.error message) ↔
      ∃ cause, result = .error cause ∧ message = cause.message := by
  rw [h.gives_iff]
  cases result with
  | ok i => simp [Except.map, Except.mapError]
  | error cause => simp [Except.map, Except.mapError, eq_comm]

/-- On the operands, the function returns the exact integer `n` if `fits` holds, and otherwise fails
because it overflows. -/
structure Computes (name : String) (operands : List Int64) (fits : Prop) (n : Int) : Prop where
  returns_iff : (∃ v, Gives name operands (.ok v)) ↔ fits
  exact : ∀ v, Gives name operands (.ok v) → ∃ i : Int64, v = .int i ∧ i.toInt = n
  fails_iff : ∀ message, Gives name operands (.error message) ↔
    ¬ fits ∧ message = "integer overflow"

theorem Answers.computes {fits : Prop} {n : Int} (h : Answers name operands result)
    (hexact : ExactIf fits n result) : Computes name operands fits n := by
  refine ⟨⟨?_, fun hfits => ?_⟩, fun v hv => ?_, fun message => h.gives_error_iff.trans ⟨?_, ?_⟩⟩
  · rintro ⟨v, hv⟩
    obtain ⟨i, hi, -⟩ := h.gives_ok_iff.1 hv
    exact (hexact.of_ok hi).1
  · obtain ⟨i, hi⟩ := hexact.exists_ok hfits
    exact ⟨.int i, h.gives_ok_iff.2 ⟨i, hi, rfl⟩⟩
  · obtain ⟨i, hi, rfl⟩ := h.gives_ok_iff.1 hv
    exact ⟨i, rfl, (hexact.of_ok hi).2⟩
  · rintro ⟨cause, hcause, rfl⟩
    obtain ⟨hout, rfl⟩ := hexact.eq_error_iff.1 hcause
    exact ⟨hout, rfl⟩
  · rintro ⟨hout, rfl⟩
    exact ⟨.overflow, hexact.eq_error_iff.2 ⟨hout, rfl⟩, rfl⟩

theorem Computes.gives {fits : Prop} {n : Int} (h : Computes name operands fits n) (hfits : fits)
    {i : Int64} (hi : i.toInt = n) : Gives name operands (.ok (.int i)) := by
  obtain ⟨v, hv⟩ := h.returns_iff.2 hfits
  obtain ⟨j, rfl, hj⟩ := h.exact v hv
  rwa [Int64.toInt_inj.1 (hj.trans hi.symm)] at hv

/-- Exact results of the same integer are the same value. -/
theorem Computes.eq_of_gives {fits fits' : Prop} {n n' : Int} {v v' : Value}
    (h : Computes name operands fits n) (h' : Computes name operands' fits' n') (hn : n = n')
    (hv : Gives name operands (.ok v)) (hv' : Gives name operands' (.ok v')) : v = v' := by
  obtain ⟨i, rfl, hi⟩ := h.exact v hv
  obtain ⟨i', rfl, hi'⟩ := h'.exact v' hv'
  rw [Int64.toInt_inj.1 (hi.trans (hn.trans hi'.symm))]

end Answers

theorem bind_pure_int (result : Except Failure Int64) :
    (result >>= fun i => pure (.int i)) = result.map Value.int := by
  cases result <;> rfl

theorem answers_of_ints {e : Entry} (he : e ∈ entries)
    {compute : List Int64 → Except Failure Int64}
    (hcall : ∀ args, e.call args = do return .int (← compute (← ints args)))
    (operands : List Int64) : Answers e.name operands (compute operands) := by
  refine ⟨e, he, rfl, ?_⟩
  rw [hcall, ints_map]
  exact bind_pure_int _

theorem answers_of_twoInts {e : Entry} (he : e ∈ entries)
    {compute : Int64 → Int64 → Except Failure Int64}
    (hcall : ∀ args, e.call args = do
      let (a, b) ← twoInts args
      return .int (← compute a b))
    (a b : Int64) : Answers e.name [a, b] (compute a b) := by
  refine ⟨e, he, rfl, ?_⟩
  rw [hcall]
  exact bind_pure_int _

/-! ## Sums, products and differences -/

theorem answers_add (operands : List Int64) : Answers "+" operands (sum operands) :=
  answers_of_ints (e := ⟨"+", [.int, .int], some .int, [.int, .error], add⟩) (by simp [entries])
    (fun _ => rfl) operands

theorem answers_multiply (operands : List Int64) : Answers "*" operands (product operands) :=
  answers_of_ints (e := ⟨"*", [.int, .int], some .int, [.int, .error], multiply⟩)
    (by simp [entries]) (fun _ => rfl) operands

theorem answers_subtract (operands : List Int64) : Answers "-" operands (difference operands) :=
  answers_of_ints (e := ⟨"-", [.int], some .int, [.int, .error], subtract⟩) (by simp [entries])
    (fun _ => rfl) operands

theorem computes_add (operands : List Int64) :
    Computes "+" operands (∀ taken, taken <+: operands → InRange (taken.map Int64.toInt).sum)
      (operands.map Int64.toInt).sum :=
  (answers_add operands).computes (exactIf_sum operands)

theorem computes_multiply (operands : List Int64) :
    Computes "*" operands (∀ taken, taken <+: operands → InRange (taken.map Int64.toInt).prod)
      (operands.map Int64.toInt).prod :=
  (answers_multiply operands).computes (exactIf_product operands)

/-- Sums and products are exact if every partial result from the left is in range, and fail
otherwise; so are differences, and a negation of anything but the least integer.  Sums and products
of the same operands in another order have the same value, if both have one. -/
theorem arithmetic_is_exact_or_overflows :
    (∀ operands : List Int64,
      Computes "+" operands (∀ taken, taken <+: operands → InRange (taken.map Int64.toInt).sum)
        (operands.map Int64.toInt).sum) ∧
    (∀ operands : List Int64,
      Computes "*" operands (∀ taken, taken <+: operands → InRange (taken.map Int64.toInt).prod)
        (operands.map Int64.toInt).prod) ∧
    (∀ a : Int64, Computes "-" [a] (a ≠ Int64.minValue) (-a.toInt)) ∧
    (∀ (first : Int64) (rest : List Int64), rest ≠ [] →
      Computes "-" (first :: rest)
        (∀ taken, taken <+: rest → InRange (first.toInt - (taken.map Int64.toInt).sum))
        (first.toInt - (rest.map Int64.toInt).sum)) ∧
    ∀ name ∈ ["+", "*"], ∀ (operands operands' : List Int64) (v v' : Value),
      operands.Perm operands' → Gives name operands (.ok v) → Gives name operands' (.ok v') →
      v = v' := by
  refine ⟨computes_add, computes_multiply, fun a => ?_, fun first rest hrest => ?_,
    fun name hname operands operands' v v' hperm hv hv' => ?_⟩
  · exact (answers_subtract [a]).computes (exactIf_difference_single a)
  · exact (answers_subtract (first :: rest)).computes (exactIf_difference first hrest)
  · have hints : (operands.map Int64.toInt).Perm (operands'.map Int64.toInt) := hperm.map _
    rcases List.mem_pair.1 hname with rfl | rfl
    · exact (computes_add operands).eq_of_gives (computes_add operands') hints.sum_eq hv hv'
    · exact (computes_multiply operands).eq_of_gives (computes_multiply operands') hints.prod_eq
        hv hv'

/-- The order of the operands decides whether a sum overflows on the way, but not what it comes to.
The least integer has no negation and can still be subtracted. -/
theorem order_matters_for_range_only :
    Gives "+" [Int64.maxValue, 1, -1] (.error "integer overflow") ∧
      Gives "+" [Int64.maxValue, -1, 1] (.ok (.int Int64.maxValue)) ∧
      Gives "+" [-1, Int64.maxValue, 1] (.ok (.int Int64.maxValue)) ∧
      Gives "-" [Int64.minValue] (.error "integer overflow") ∧
      Gives "-" [-1, Int64.minValue] (.ok (.int Int64.maxValue)) := by
  obtain ⟨hsum, -, hnegation, hdifference, horder⟩ := arithmetic_is_exact_or_overflows
  have hfirst : Gives "+" [Int64.maxValue, -1, 1] (.ok (.int Int64.maxValue)) := by
    refine (hsum _).gives ?_ (by decide)
    simp only [← List.mem_inits]
    decide
  refine ⟨(hsum _).fails_iff _ |>.2 ⟨fun h => ?_, rfl⟩, hfirst, ?_,
    (hnegation _).fails_iff _ |>.2 ⟨fun h => h rfl, rfl⟩, ?_⟩
  · exact absurd (h [Int64.maxValue, 1] ⟨[-1], rfl⟩) (by decide)
  · have hfits : ∀ taken, taken <+: [-1, Int64.maxValue, 1] →
        InRange (taken.map Int64.toInt).sum := by
      simp only [← List.mem_inits]
      decide
    obtain ⟨v, hv⟩ := (hsum _).returns_iff.2 hfits
    rwa [horder "+" (by simp) _ _ _ _ (List.Perm.swap _ _ _) hv hfirst] at hv
  · refine (hdifference (-1) [Int64.minValue] (by simp)).gives ?_ (by decide)
    simp only [← List.mem_inits]
    decide

/-! ## Quotients and remainders -/

/-- Division with a remainder that goes toward zero: what is left over is smaller than the divisor,
and on the side of the dividend. -/
structure Truncates (a b q r : Int) : Prop where
  eq : a = q * b + r
  natAbs_lt : r.natAbs < b.natAbs
  sign : r = 0 ∨ r.sign = a.sign

/-- There is only one such division. -/
theorem truncates_iff {a b q r : Int} :
    Truncates a b q r ↔ b ≠ 0 ∧ a.tdiv b = q ∧ a.tmod b = r := by
  have hcomm : q * b + r = r + b * q := by rw [Int.add_comm, Int.mul_comm]
  constructor
  · rintro ⟨heq, hlt, hsign⟩
    have hb : b ≠ 0 := by
      rintro rfl
      exact absurd hlt (Nat.not_lt_zero _)
    refine ⟨hb, ?_⟩
    -- A division is determined for each sign of the dividend, and the remainder has the same one.
    rcases Int.le_total 0 a with ha | ha
    · have hr : 0 ≤ r := by
        rcases hsign with rfl | hsign
        · exact Int.le_refl 0
        · rw [← Int.sign_nonneg_iff, hsign]
          exact Int.sign_nonneg_iff.2 ha
      exact (Int.tdiv_tmod_unique ha hb).2 ⟨(heq.trans hcomm).symm, hr, by omega⟩
    · have hr : r ≤ 0 := by
        rcases hsign with rfl | hsign
        · exact Int.le_refl 0
        · rw [← Int.sign_nonpos_iff, hsign]
          exact Int.sign_nonpos_iff.2 ha
      exact (Int.tdiv_tmod_unique' ha hb).2 ⟨(heq.trans hcomm).symm, by omega, hr⟩
  · rintro ⟨hb, rfl, rfl⟩
    refine ⟨?_, ?_, ?_⟩
    · rw [Int.mul_comm]
      exact (Int.mul_tdiv_add_tmod a b).symm
    · rw [Int.natAbs_tmod]
      exact Nat.mod_lt _ (Int.natAbs_pos.2 hb)
    · rw [Int.sign_tmod]
      by_cases hdvd : b ∣ a
      · exact .inl (Int.tmod_eq_zero_of_dvd hdvd)
      · exact .inr (if_neg hdvd)

section Division

variable {a b : Int64}

theorem toInt_ne_zero (hb : b ≠ 0) : b.toInt ≠ 0 := fun h => hb (Int64.toInt_inj.1 h)

/-- Only one quotient is out of range.  A divisor that is at least two in magnitude halves the
dividend, and of the other two one changes the sign. -/
theorem inRange_tdiv_iff (hb : b ≠ 0) :
    InRange (a.toInt.tdiv b.toInt) ↔ ¬ (a = Int64.minValue ∧ b = -1) := by
  constructor
  · rintro h ⟨rfl, rfl⟩
    exact absurd h (by decide)
  · intro hleast
    have hb' := toInt_ne_zero hb
    obtain ⟨hlower, hupper⟩ := inRange_toInt a
    by_cases hone : b.toInt.natAbs = 1
    · rcases Int.natAbs_eq_iff.1 hone with h | h
      · rw [h, Int.natCast_one, Int.tdiv_one]
        exact ⟨hlower, hupper⟩
      · have hminus : b = -1 := Int64.toInt_inj.1 h
        have hmin : a.toInt ≠ -2 ^ 63 := fun ha => hleast ⟨Int64.toInt_inj.1 ha, hminus⟩
        rw [h, Int.natCast_one, Int.tdiv_neg, Int.tdiv_one, InRange]
        omega
    · have hhalf : (a.toInt.tdiv b.toInt).natAbs ≤ a.toInt.natAbs / 2 := by
        rw [Int.natAbs_tdiv]
        exact Nat.div_le_div_left (by omega) (by decide)
      rw [InRange]
      omega

theorem inRange_tmod (hb : b ≠ 0) : InRange (a.toInt.tmod b.toInt) := by
  have hlt : (a.toInt.tmod b.toInt).natAbs < b.toInt.natAbs :=
    (truncates_iff.2 ⟨toInt_ne_zero hb, rfl, rfl⟩).natAbs_lt
  obtain ⟨hlower, hupper⟩ := inRange_toInt b
  rw [InRange]
  omega

theorem exactIf_quotient (hb : b ≠ 0) :
    ExactIf (¬ (a = Int64.minValue ∧ b = -1)) (a.toInt.tdiv b.toInt) (quotient a b) := by
  unfold quotient
  rw [if_neg hb]
  exact (exactIf_exact _).congr (inRange_tdiv_iff hb) rfl

theorem exactIf_remainder (hb : b ≠ 0) :
    ExactIf (¬ (a = Int64.minValue ∧ b = -1)) (a.toInt.tmod b.toInt) (remainder a b) := by
  unfold remainder
  rw [if_neg hb]
  by_cases hleast : a = Int64.minValue ∧ b = -1
  · rw [if_pos hleast]
    exact .inr ⟨not_not_intro hleast, rfl⟩
  · rw [if_neg hleast]
    exact (exactIf_exact _).congr (iff_of_true (inRange_tmod hb) hleast) rfl

/-- The function returns a value unless it would divide by zero or the quotient is out of range, and
says which of them it is. -/
structure GuardsDivision (name : String) (a b : Int64) : Prop where
  returns_iff : (∃ v, Gives name [a, b] (.ok v)) ↔ b ≠ 0 ∧ ¬ (a = Int64.minValue ∧ b = -1)
  fails_iff : ∀ message, Gives name [a, b] (.error message) ↔
    b = 0 ∧ message = "division by zero" ∨
      (a = Int64.minValue ∧ b = -1) ∧ message = "integer overflow"

theorem Answers.guardsDivision {name : String} {result : Except Failure Int64} {n : Int}
    (h : Answers name [a, b] result) (hzero : b = 0 → result = .error .divisionByZero)
    (hexact : b ≠ 0 → ExactIf (¬ (a = Int64.minValue ∧ b = -1)) n result) :
    GuardsDivision name a b := by
  by_cases hb : b = 0
  · have hminus : b ≠ -1 := by
      rw [hb]
      decide
    obtain rfl := hzero hb
    refine ⟨⟨fun ⟨v, hv⟩ => ?_, fun hin => absurd hb hin.1⟩,
      fun message => h.gives_error_iff.trans ⟨?_, ?_⟩⟩
    · obtain ⟨i, hi, -⟩ := h.gives_ok_iff.1 hv
      cases hi
    · rintro ⟨cause, hcause, rfl⟩
      obtain rfl := Except.error.inj hcause
      exact .inl ⟨hb, rfl⟩
    · rintro (⟨-, rfl⟩ | ⟨hleast, -⟩)
      · exact ⟨.divisionByZero, rfl, rfl⟩
      · exact absurd hleast.2 hminus
  · have hcomputes := h.computes (hexact hb)
    refine ⟨?_, fun message => ?_⟩
    · rw [hcomputes.returns_iff, and_iff_right hb]
    · rw [hcomputes.fails_iff, not_not, or_iff_right fun hzero => hb hzero.1]

theorem answers_divide (a b : Int64) : Answers "/" [a, b] (quotient a b) :=
  answers_of_twoInts (e := ⟨"/", [.int, .int], none, [.int, .error], divide⟩) (by simp [entries])
    (fun _ => rfl) a b

theorem answers_modulo (a b : Int64) : Answers "%" [a, b] (remainder a b) :=
  answers_of_twoInts (e := ⟨"%", [.int, .int], none, [.int, .error], modulo⟩) (by simp [entries])
    (fun _ => rfl) a b

theorem truncates_of_ok {q r : Int64} (hq : quotient a b = .ok q) (hr : remainder a b = .ok r) :
    Truncates a.toInt b.toInt q.toInt r.toInt := by
  have hb : b ≠ 0 := by
    rintro rfl
    cases hq
  have hquotient := ((exactIf_quotient hb).of_ok hq).2
  have hremainder := ((exactIf_remainder hb).of_ok hr).2
  exact truncates_iff.2 ⟨toInt_ne_zero hb, hquotient.symm, hremainder.symm⟩

/-- If a division toward zero has a quotient in range, it is the one that is found. -/
theorem ok_of_truncates {q r : Int64} (h : Truncates a.toInt b.toInt q.toInt r.toInt) :
    quotient a b = .ok q ∧ remainder a b = .ok r := by
  obtain ⟨hzero, hquotient, hremainder⟩ := truncates_iff.1 h
  have hb : b ≠ 0 := by
    rintro rfl
    exact hzero rfl
  have hfits := (inRange_tdiv_iff (a := a) hb).1 (hquotient ▸ inRange_toInt q)
  obtain ⟨q', hq'⟩ := (exactIf_quotient hb).exists_ok hfits
  obtain ⟨r', hr'⟩ := (exactIf_remainder hb).exists_ok hfits
  have hq := ((exactIf_quotient hb).of_ok hq').2.trans hquotient
  have hr := ((exactIf_remainder hb).of_ok hr').2.trans hremainder
  rw [hq', hr', Int64.toInt_inj.1 hq, Int64.toInt_inj.1 hr]
  exact ⟨rfl, rfl⟩

end Division

/-- Quotient and remainder are refused for the same operands and with the same text, and values of
both are those of the one division toward zero. -/
theorem quotient_and_remainder_agree (a b : Int64) :
    GuardsDivision "/" a b ∧ GuardsDivision "%" a b ∧
      ∀ v w, Gives "/" [a, b] (.ok v) ∧ Gives "%" [a, b] (.ok w) ↔
        ∃ q r : Int64, v = .int q ∧ w = .int r ∧
          Truncates a.toInt b.toInt q.toInt r.toInt := by
  refine ⟨?_, ?_, fun v w => ?_⟩
  · exact (answers_divide a b).guardsDivision (fun hb => if_pos hb) exactIf_quotient
  · exact (answers_modulo a b).guardsDivision (fun hb => if_pos hb) exactIf_remainder
  · rw [(answers_divide a b).gives_ok_iff, (answers_modulo a b).gives_ok_iff]
    constructor
    · rintro ⟨⟨q, hq, rfl⟩, r, hr, rfl⟩
      exact ⟨q, r, rfl, rfl, truncates_of_ok hq hr⟩
    · rintro ⟨q, r, rfl, rfl, h⟩
      obtain ⟨hq, hr⟩ := ok_of_truncates h
      exact ⟨⟨q, hq, rfl⟩, r, hr, rfl⟩

end HostLisp.Library
