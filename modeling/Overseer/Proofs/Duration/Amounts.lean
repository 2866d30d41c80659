import Mathlib.Algebra.GroupWithZero.Nat
import Overseer.Duration.Reader
import Overseer.Proofs.Outcomes

/-!
What lengths of time come to in nanoseconds. A term is added in parts, its number first and then its
fraction, and a sum is exact as long as it stays below 2⁶⁴ seconds. Beyond that an error is
reported, but for a sum that a last second in nanoseconds makes exactly that long.
-/
namespace Overseer

def TimeUnit.Scale.total : TimeUnit.Scale → Nat
  | .nanoseconds n => n
  | .seconds n => n * nanosPerSecond

def TimeUnit.Scale.count : TimeUnit.Scale → Nat
  | .nanoseconds n | .seconds n => n

def TimeUnit.Scale.withCount : TimeUnit.Scale → Nat → TimeUnit.Scale
  | .nanoseconds _, n => .nanoseconds n
  | .seconds _, n => .seconds n

namespace Duration

open TimeUnit (Scale)

def total (d : Duration) : Nat :=
  d.seconds * nanosPerSecond + d.nanoseconds

def limit : Nat := (greatest64 + 1) * nanosPerSecond

theorem total_lt (d : Duration) : d.total < limit := by
  have seconds := d.seconds_le
  have nanoseconds := d.nanoseconds_lt
  simp only [total, limit, nanosPerSecond] at *
  omega

theorem total_inj {d e : Duration} (same : d.total = e.total) : d = e := by
  have hd := d.nanoseconds_lt
  have he := e.nanoseconds_lt
  obtain ⟨s, n, _, _⟩ := d
  obtain ⟨s', n', _, _⟩ := e
  simp only [total, nanosPerSecond] at *
  obtain ⟨rfl, rfl⟩ : s = s' ∧ n = n' := by omega
  rfl

theorem total_zero : zero.total = 0 := rfl

theorem exists_total {t : Nat} (fits : t < limit) : ∃ d : Duration, d.total = t := by
  refine ⟨⟨t / nanosPerSecond, t % nanosPerSecond, ?_, Nat.mod_lt t (by decide)⟩,
    Nat.div_add_mod' t nanosPerSecond⟩
  exact Nat.le_of_lt_succ (Nat.div_lt_of_lt_mul (by rwa [Nat.mul_comm]))

theorem total_mod (d : Duration) : d.total % nanosPerSecond = d.nanoseconds := by
  rw [total, Nat.add_comm, Nat.add_mul_mod_self_right, Nat.mod_eq_of_lt d.nanoseconds_lt]

theorem checked_of_le {n : Nat} (fits : n ≤ greatest64) : checked n = .ok n := if_pos fits

theorem checked_of_lt {n : Nat} (beyond : greatest64 < n) : checked n = .error .unrepresentable :=
  if_neg (Nat.not_le_of_lt beyond)

theorem checked_eq_ok_iff {n m : Nat} : checked n = .ok m ↔ n ≤ greatest64 ∧ n = m := by
  unfold checked
  split <;> simp [*]

/-- What is carried last is a whole second, for which there may be no room. -/
theorem makeChecked_eq_ok_iff {s n : Nat} {d : Duration} (carries : n ≤ nanosPerSecond) :
    (checked s >>= fun s => make s n) = .ok d ↔ d.total = s * nanosPerSecond + n := by
  have bound := d.total_lt
  simp only [limit, nanosPerSecond] at *
  by_cases fits : s ≤ greatest64
  · rw [checked_of_le fits]
    change make s n = _ ↔ _
    unfold make
    split
    next below =>
      rw [Except.ok.injEq]
      exact ⟨fun same => same ▸ rfl, fun same => total_inj same.symm⟩
    next whole =>
      simp only [nanosPerSecond] at whole
      split
      next room =>
        have carried : (ofSeconds (s + 1) room).total = s * 1000000000 + n := by
          simp only [ofSeconds, total, nanosPerSecond]
          omega
        rw [Except.ok.injEq]
        exact ⟨fun same => same ▸ carried, fun same => total_inj (carried.trans same.symm)⟩
      next beyond => exact iff_of_false (by simp) (by omega)
  · rw [checked_of_lt (Nat.lt_of_not_le fits)]
    exact iff_of_false (by rintro ⟨⟩) (by omega)

theorem makeChecked_eq_overflow_iff {s n : Nat} (carries : n ≤ nanosPerSecond) :
    (checked s >>= fun s => make s n) = .error .overflow ↔
      s = greatest64 ∧ n = nanosPerSecond := by
  by_cases fits : s ≤ greatest64
  · rw [checked_of_le fits]
    change make s n = _ ↔ _
    unfold make
    repeat' split
    · exact iff_of_false (by simp) (by omega)
    · exact iff_of_false (by simp) (by omega)
    · exact iff_of_true rfl (by omega)
  · rw [checked_of_lt (Nat.lt_of_not_le fits)]
    exact iff_of_false (by rintro ⟨⟩) (by omega)

theorem plus_of_lt {d : Duration} {s n : Nat} (beyond : greatest64 < d.nanoseconds + n) :
    d.plus s n = .error .unrepresentable := by
  rw [plus, checked_of_lt beyond]
  rfl

/-- More nanoseconds than a second has are carried as seconds. -/
theorem plus_of_carried {d : Duration} {s n : Nat} (fits : d.nanoseconds + n ≤ greatest64)
    (more : nanosPerSecond < d.nanoseconds + n) :
    d.plus s n = checked (s + (d.nanoseconds + n) / nanosPerSecond) >>= fun carried =>
      checked (d.seconds + carried) >>= fun s =>
        make s ((d.nanoseconds + n) % nanosPerSecond) := by
  rw [plus, checked_of_le fits]
  exact if_pos more

theorem plus_of_le {d : Duration} {s n : Nat} (few : d.nanoseconds + n ≤ nanosPerSecond) :
    d.plus s n = checked (d.seconds + s) >>= fun s => make s (d.nanoseconds + n) := by
  have fits : d.nanoseconds + n ≤ greatest64 := Nat.le_trans few (by decide)
  rw [plus, checked_of_le fits]
  exact if_neg (Nat.not_lt_of_le few)

/-- Adding is exact where it succeeds, and it succeeds wherever the nanoseconds fit into 64 bits and
the sum is not too long. -/
theorem plus_eq_ok_iff {d d' : Duration} {s n : Nat} :
    d.plus s n = .ok d' ↔
      d.nanoseconds + n ≤ greatest64 ∧ d'.total = d.total + s * nanosPerSecond + n := by
  have bound := d'.total_lt
  have whole := Nat.div_add_mod (d.nanoseconds + n) nanosPerSecond
  by_cases fits : d.nanoseconds + n ≤ greatest64
  · rw [and_iff_right fits]
    by_cases more : nanosPerSecond < d.nanoseconds + n
    · rw [plus_of_carried fits more]
      -- Where the seconds with those that are carried do not fit, no sum of them does.
      by_cases room : s + (d.nanoseconds + n) / nanosPerSecond ≤ greatest64
      · rw [checked_of_le room]
        refine (makeChecked_eq_ok_iff (Nat.le_of_lt (Nat.mod_lt _ (by decide)))).trans ?_
        simp only [total, nanosPerSecond] at *
        omega
      · rw [checked_of_lt (Nat.lt_of_not_le room)]
        refine iff_of_false (by rintro ⟨⟩) ?_
        simp only [total, limit, nanosPerSecond] at *
        omega
    · rw [plus_of_le (Nat.le_of_not_lt more), makeChecked_eq_ok_iff (Nat.le_of_not_lt more)]
      simp only [total, nanosPerSecond]
      omega
  · rw [plus_of_lt (Nat.lt_of_not_le fits)]
    exact iff_of_false (by simp) fun ⟨within, _⟩ => fits within

/-- There is no room for the last second if the nanoseconds make it up exactly. -/
theorem plus_eq_overflow_iff {d : Duration} {s n : Nat} :
    d.plus s n = .error .overflow ↔
      d.seconds + s = greatest64 ∧ d.nanoseconds + n = nanosPerSecond := by
  by_cases fits : d.nanoseconds + n ≤ greatest64
  · by_cases more : nanosPerSecond < d.nanoseconds + n
    · rw [plus_of_carried fits more]
      have below := Nat.mod_lt (d.nanoseconds + n) (show nanosPerSecond > 0 by decide)
      refine iff_of_false ?_ (by omega)
      by_cases room : s + (d.nanoseconds + n) / nanosPerSecond ≤ greatest64
      · rw [checked_of_le room]
        exact fun overflow =>
          Nat.ne_of_lt below ((makeChecked_eq_overflow_iff (Nat.le_of_lt below)).mp overflow).2
      · rw [checked_of_lt (Nat.lt_of_not_le room)]
        rintro ⟨⟩
    · rw [plus_of_le (Nat.le_of_not_lt more), makeChecked_eq_overflow_iff (Nat.le_of_not_lt more)]
  · rw [plus_of_lt (Nat.lt_of_not_le fits)]
    refine iff_of_false (by simp) fun ⟨_, second⟩ => fits ?_
    rw [second]
    decide

def add (d : Duration) : Scale → Outcome Duration
  | .nanoseconds n => d.plus 0 n
  | .seconds n => d.plus n 0

/-- A part fits into 64 bits with the nanoseconds, of so many altogether, that make no second. -/
def Fits (before : Nat) : Scale → Prop
  | .nanoseconds n => before % nanosPerSecond + n ≤ greatest64
  | .seconds _ => True

theorem add_eq_ok_iff {d d' : Duration} {part : Scale} :
    d.add part = .ok d' ↔ Fits d.total part ∧ d'.total = d.total + part.total := by
  cases part with
  | nanoseconds n =>
    rw [add, plus_eq_ok_iff, Fits, total_mod, Nat.zero_mul, Nat.add_zero]
    rfl
  | seconds n =>
    have few : d.nanoseconds + 0 ≤ greatest64 :=
      Nat.le_trans (Nat.le_of_lt d.nanoseconds_lt) (by decide)
    rw [add, plus_eq_ok_iff, Fits, Scale.total, Nat.add_zero (d.total + _), and_iff_right few,
      true_and]

theorem add_eq_overflow_iff {d : Duration} {part : Scale} :
    d.add part = .error .overflow ↔
      ∃ n, part = .nanoseconds n ∧ 0 < n ∧ n ≤ nanosPerSecond ∧ d.total + n = limit := by
  have seconds := d.seconds_le
  have nanoseconds := d.nanoseconds_lt
  cases part with
  | nanoseconds n =>
    simp only [add, plus_eq_overflow_iff, Scale.nanoseconds.injEq, exists_eq_left', total, limit,
      nanosPerSecond] at *
    omega
  | seconds n =>
    rw [add, plus_eq_overflow_iff]
    refine iff_of_false (by omega) (by simp)

def scaled (n : Nat) (s : Scale) : Outcome Scale :=
  (checked (n * s.count)).map s.withCount

def divided (f : Fraction) (s : Scale) : Outcome Scale := do
  let n ← checked (f.numerator * s.count)
  if n % f.denominator = 0 then .ok (s.withCount (n / f.denominator))
  else .error .unrepresentable

/-- The parts in which a term is added, or why it has none. -/
def Term.parts (t : Term) : List (Outcome Scale) :=
  match TimeUnit.ofName? t.unit with
  | none => [.error (if t.unit.isEmpty then .unitNeeded t.whole else .unknownUnit t.unit)]
  | some u =>
    scaled t.whole u.scale ::
      t.fraction.toList.map fun f =>
        match u.fractionScale with
        | none => .error .unrepresentable
        | some s => divided f s

def addParts (d : Duration) (parts : List (Outcome Scale)) : Outcome Duration :=
  parts.foldlM (fun d part => part >>= d.add) d

theorem addParts_cons (d : Duration) (part : Outcome Scale) (parts : List (Outcome Scale)) :
    d.addParts (part :: parts) = part >>= d.add >>= fun d => d.addParts parts := by
  rw [addParts, List.foldlM_cons]
  rfl

theorem addParts_append (d : Duration) (first later : List (Outcome Scale)) :
    d.addParts (first ++ later) = d.addParts first >>= fun d => d.addParts later :=
  List.foldlM_append

theorem addScaled_eq (d : Duration) (n : Nat) (s : Scale) :
    d.addScaled n s = scaled n s >>= d.add := by
  cases s <;> simp only [addScaled, scaled, Scale.count] <;> cases checked _ <;> rfl

theorem addFraction_eq (d : Duration) (f : Fraction) (s : Scale) :
    d.addFraction f s = divided f s >>= d.add := by
  cases s <;> simp only [addFraction, divided, Scale.count] <;>
    cases checked _ with
    | error e => rfl
    | ok n =>
      simp only [bind, Except.bind]
      split <;> rfl

theorem addTerm_eq (d : Duration) (t : Term) : d.addTerm t = d.addParts t.parts := by
  unfold addTerm Term.parts
  cases TimeUnit.ofName? t.unit with
  | none => rfl
  | some u =>
    simp only [addScaled_eq, addParts_cons]
    refine bind_congr fun d => ?_
    cases t.fraction with
    | none => rfl
    | some f =>
      cases u.fractionScale with
      | none => rfl
      | some s => simp [addFraction_eq, addParts]

theorem checked_ne_overflow (n : Nat) : checked n ≠ .error .overflow := by
  unfold checked
  split <;> simp

theorem scaled_ne_overflow (n : Nat) (s : Scale) : scaled n s ≠ .error .overflow :=
  mt Except.map_eq_error_iff.mp (checked_ne_overflow _)

theorem divided_ne_overflow (f : Fraction) (s : Scale) : divided f s ≠ .error .overflow := by
  intro failed
  obtain first | ⟨n, _, later⟩ := Except.bind_eq_error_iff.mp failed
  · exact checked_ne_overflow _ first
  · split at later <;> cases later

/-- Nothing but adding fails without a report. -/
theorem overflow_not_mem_parts (t : Term) : .error .overflow ∉ t.parts := by
  unfold Term.parts
  split
  next => split <;> simp
  next u known =>
    simp only [List.mem_cons, List.mem_map, Option.mem_toList, not_or, not_exists, not_and]
    refine ⟨(scaled_ne_overflow t.whole u.scale).symm, fun f _ => ?_⟩
    split
    · simp
    · exact divided_ne_overflow f _

def sum (parts : List Scale) : Nat := (parts.map Scale.total).sum

theorem sum_cons (part : Scale) (parts : List Scale) :
    sum (part :: parts) = part.total + sum parts := rfl

def FitFrom (before : Nat) : List Scale → Prop
  | [] => True
  | part :: parts => Fits before part ∧ FitFrom (before + part.total) parts

variable {d d' : Duration} {part : Scale} {parts : List Scale}

theorem exists_add (fits : Fits d.total part) (room : d.total + part.total < limit) :
    ∃ e, d.add part = .ok e ∧ e.total = d.total + part.total := by
  obtain ⟨e, same⟩ := exists_total room
  exact ⟨e, add_eq_ok_iff.mpr ⟨fits, same⟩, same⟩

theorem addParts_eq_ok_iff :
    d.addParts (parts.map .ok) = .ok d' ↔
      FitFrom d.total parts ∧ d'.total = d.total + sum parts := by
  induction parts generalizing d with
  | nil =>
    change Except.ok d = .ok d' ↔ True ∧ d'.total = d.total + 0
    rw [true_and, Nat.add_zero, Except.ok.injEq]
    exact ⟨fun same => same ▸ rfl, fun same => total_inj same.symm⟩
  | cons part parts ih =>
    rw [List.map_cons, addParts_cons]
    change (d.add part >>= _) = _ ↔ _
    cases added : d.add part with
    | ok e =>
      obtain ⟨fits, total⟩ := add_eq_ok_iff.mp added
      refine ih.trans ?_
      rw [FitFrom, total, sum_cons, Nat.add_assoc, and_assoc, and_iff_right fits]
    | error e =>
      refine iff_of_false (by rintro ⟨⟩) ?_
      rintro ⟨⟨fits, _⟩, total⟩
      have bound := d'.total_lt
      rw [total, sum_cons] at bound
      obtain ⟨e', added', _⟩ := exists_add fits (by omega)
      rw [added] at added'
      cases added'

/-- A sum fails without a report just if a last second in nanoseconds makes it too long. -/
theorem addParts_eq_overflow_iff {outcomes : List (Outcome Scale)}
    (reported : .error .overflow ∉ outcomes) :
    d.addParts outcomes = .error .overflow ↔
      ∃ parts n, (parts ++ [.nanoseconds n]).map .ok <+: outcomes ∧ FitFrom d.total parts ∧
        0 < n ∧ n ≤ nanosPerSecond ∧ d.total + sum parts + n = limit := by
  induction outcomes generalizing d with
  | nil => exact iff_of_false (by rintro ⟨⟩) (by simp)
  | cons outcome outcomes ih =>
    rw [List.mem_cons, not_or] at reported
    rw [addParts_cons, bind_assoc]
    cases outcome with
    | error e =>
      have other : e ≠ .overflow := fun same => reported.1 (same ▸ rfl)
      refine iff_of_false (fun failed => other (Except.error.inj failed)) ?_
      rintro ⟨parts, n, front, _⟩
      cases parts <;> simp at front
    | ok part =>
      change (d.add part >>= _) = _ ↔ _
      rw [Except.bind_eq_error_iff]
      constructor
      · rintro (last | ⟨e, added, later⟩)
        · obtain ⟨n, rfl, some, second, whole⟩ := add_eq_overflow_iff.mp last
          exact ⟨[], n, by simp, trivial, some, second, by simpa [sum] using whole⟩
        · obtain ⟨fits, total⟩ := add_eq_ok_iff.mp added
          obtain ⟨parts, n, front, fitting, some, second, whole⟩ := (ih reported.2).mp later
          rw [total] at fitting whole
          refine ⟨part :: parts, n, by simpa using front, ⟨fits, fitting⟩, some, second, ?_⟩
          rw [sum_cons, ← Nat.add_assoc, whole]
      · rintro ⟨parts, n, front, fitting, some, second, whole⟩
        cases parts with
        | nil =>
          obtain rfl : .nanoseconds n = part := by simpa using front
          exact .inl (add_eq_overflow_iff.mpr ⟨n, rfl, some, second, by simpa [sum] using whole⟩)
        | cons part' parts =>
          obtain ⟨rfl, later⟩ : part' = part ∧ _ :=
            by simpa [-List.map_append] using front
          rw [sum_cons, ← Nat.add_assoc] at whole
          obtain ⟨e, added, total⟩ := exists_add fitting.1 (by omega)
          refine .inr ⟨e, added, (ih reported.2).mpr ⟨parts, n, later, ?_, some, second, ?_⟩⟩
          · rw [total]
            exact fitting.2
          · rw [total, whole]

end Duration

end Overseer
