import Billfold.Json.Order
import Billfold.Proofs.Except

/-!
# Elements put in the order of their keys

A run that the elements begin with is taken as it is, the other way round where it falls, and the
others are put into it one by one.

* `perm_sortBy`    what is put in order are the same elements
* `StandsBefore`   how two elements with whole numbers stand to each other afterwards
* `insertBy_int`   an element is put in its place
* `sortBy_int`     elements with whole numbers can be put in order, and they are
-/

namespace Billfold.Json

variable {α : Type} {key : α → Json} {a b : α} {xs ys run rest : List α} {falling : Bool}
variable {steps : Nat}

/-! ## the same elements -/

theorem runBy_append (h : runBy key falling a xs = .ok (run, rest)) : run ++ rest = xs := by
  induction xs generalizing a run with
  | nil =>
    cases h
    rfl
  | cons x xs ih =>
    unfold runBy at h
    obtain ⟨before, -, h⟩ := Except.bind_eq_ok.1 h
    split at h
    · obtain ⟨⟨more, left⟩, taken, h⟩ := Except.bind_eq_ok.1 h
      cases h
      rw [List.cons_append, ih taken]
    · cases h
      rfl

theorem take_append_of_drop {back : List α} {n : Nat} (cut : xs.drop n = b :: back) :
    xs.take n ++ b :: back = xs := by
  rw [← cut, List.take_append_drop]

theorem eq_nil_of_drop_half (h : xs.drop (xs.length / 2) = []) : xs = [] := by
  rw [List.drop_eq_nil_iff] at h
  exact List.length_eq_zero_iff.1 (by omega)

theorem perm_insertBy (h : insertBy key a steps xs = .ok ys) : ys.Perm (a :: xs) := by
  induction steps generalizing xs ys with
  | zero =>
    cases h
    exact .refl _
  | succ steps ih =>
    unfold insertBy at h
    split at h
    · next cut =>
      cases h
      rw [eq_nil_of_drop_half cut]
    · next b back cut =>
      have parts := take_append_of_drop cut
      generalize xs.take (xs.length / 2) = front at parts h
      subst parts
      obtain ⟨before, -, h⟩ := Except.bind_eq_ok.1 h
      split at h
      · obtain ⟨longer, inserted, h⟩ := Except.bind_eq_ok.1 h
        cases h
        exact (ih inserted).append_right (b :: back)
      · obtain ⟨longer, inserted, h⟩ := Except.bind_eq_ok.1 h
        cases h
        calc (front ++ b :: longer).Perm (front ++ b :: a :: back) :=
              ((ih inserted).cons b).append_left front
          _ |>.Perm (front ++ a :: b :: back) := (List.Perm.swap a b back).append_left front
          _ |>.Perm (a :: (front ++ b :: back)) := List.perm_middle

theorem perm_insertBy_append (h : insertBy key a steps xs = .ok ys) (zs : List α) :
    (ys ++ zs).Perm (xs ++ a :: zs) :=
  ((perm_insertBy h).append_right zs).trans List.perm_middle.symm

theorem perm_foldlM_insertBy {sorted : List α}
    (h : xs.foldlM (fun sorted a => insertBy key a sorted.length sorted) sorted = .ok ys) :
    ys.Perm (sorted ++ xs) := by
  induction xs generalizing sorted with
  | nil =>
    cases h
    rw [List.append_nil]
  | cons x xs ih =>
    rw [List.foldlM_cons] at h
    obtain ⟨next, inserted, h⟩ := Except.bind_eq_ok.1 h
    exact (ih h).trans (perm_insertBy_append inserted xs)

theorem perm_start (falling : Bool) (run : List α) :
    (if falling then run.reverse else run).Perm run := by
  split
  · exact List.reverse_perm run
  · exact .refl run

theorem perm_sortBy (h : sortBy key xs = .ok ys) : ys.Perm xs := by
  unfold sortBy at h
  split at h
  · next a b others =>
    obtain ⟨falling, -, h⟩ := Except.bind_eq_ok.1 h
    obtain ⟨⟨run, rest⟩, taken, h⟩ := Except.bind_eq_ok.1 h
    have sorted := perm_foldlM_insertBy h
    rw [← runBy_append taken]
    exact sorted.trans ((perm_start falling (a :: run)).append_right rest)
  · cases h
    exact .refl _

/-! ## the order of whole numbers -/

theorem precedes_int (m n : Int) : precedes (.int m) (.int n) = .ok (decide (m < n)) := by
  unfold precedes
  show Except.ok (some (compare (m * 1) (n * 1)) == some Ordering.lt) = _
  rw [Int.mul_one, Int.mul_one]
  congr 1
  by_cases lt : m < n
  · rw [decide_eq_true lt, Int.compare_eq_lt.2 lt]
    rfl
  · rw [decide_eq_false lt]
    refine beq_eq_false_iff_ne.2 fun same => lt ?_
    exact Int.compare_eq_lt.1 (Option.some.inj same)

variable {num : α → Int} {came : α → α → Prop} {x y : α}

/-- an element stands before another if its number is smaller, or if the numbers are equal and it
came before -/
def StandsBefore (num : α → Int) (came : α → α → Prop) (x y : α) : Prop :=
  num x < num y ∨ num x = num y ∧ came x y

theorem StandsBefore.le (h : StandsBefore num came x y) : num x ≤ num y := by
  rcases h with lt | ⟨same, -⟩ <;> omega

theorem standsBefore_of_le (le : num x ≤ num y) (first : came x y) : StandsBefore num came x y := by
  rcases Int.lt_or_eq_of_le le with lt | same
  · exact .inl lt
  · exact .inr ⟨same, first⟩

theorem runBy_int (here : key a = .int (num a)) (there : ∀ x ∈ xs, key x = .int (num x))
    (falling : Bool) :
    ∃ run rest, runBy key falling a xs = .ok (run, rest) ∧
      (a :: run).Pairwise fun x y => decide (num y < num x) = falling := by
  induction xs generalizing a with
  | nil => exact ⟨[], [], rfl, List.pairwise_singleton _ a⟩
  | cons x xs ih =>
    obtain ⟨next, later⟩ := List.forall_mem_cons.1 there
    have compared : precedes (key x) (key a) = .ok (decide (num x < num a)) := by
      rw [next, here, precedes_int]
    unfold runBy
    rw [compared]
    by_cases goes : decide (num x < num a) = falling
    · obtain ⟨run, rest, taken, ordered⟩ := ih next later
      refine ⟨x :: run, rest, ?_, List.pairwise_cons.2 ⟨fun y hy => ?_, ordered⟩⟩
      · show (if (decide (num x < num a) == falling) = true then _ else _) = _
        rw [if_pos (beq_iff_eq.2 goes), taken]
        rfl
      · -- what the run is to its next element it is to all that follow
        rcases List.mem_cons.1 hy with rfl | hy
        · exact goes
        · have onward := (List.pairwise_cons.1 ordered).1 y hy
          cases falling with
          | true =>
            rw [decide_eq_true_iff] at goes onward ⊢
            omega
          | false =>
            rw [decide_eq_false_iff_not] at goes onward ⊢
            omega
    · refine ⟨[], x :: xs, ?_, List.pairwise_singleton _ a⟩
      show (if (decide (num x < num a) == falling) = true then _ else _) = _
      rw [if_neg (fun same => goes (beq_iff_eq.1 same))]
      rfl

variable {front back longer : List α}

theorem pairwise_insert_front (ordered : (front ++ b :: back).Pairwise (StandsBefore num came))
    (sorted : longer.Pairwise (StandsBefore num came)) (same : longer.Perm (a :: front))
    (lt : num a < num b) : (longer ++ b :: back).Pairwise (StandsBefore num came) := by
  obtain ⟨-, in_back, across⟩ := List.pairwise_append.1 ordered
  refine List.pairwise_append.2 ⟨sorted, in_back, fun x hx y hy => ?_⟩
  rcases List.mem_cons.1 (same.mem_iff.1 hx) with rfl | hx
  · rcases List.mem_cons.1 hy with rfl | hy
    · exact .inl lt
    · exact .inl (Int.lt_of_lt_of_le lt ((List.pairwise_cons.1 in_back).1 y hy).le)
  · exact across x hx y hy

theorem pairwise_insert_back (ordered : (front ++ b :: back).Pairwise (StandsBefore num came))
    (sorted : longer.Pairwise (StandsBefore num came)) (same : longer.Perm (a :: back))
    (le : num b ≤ num a) (last : ∀ x ∈ front ++ b :: back, came x a) :
    (front ++ b :: longer).Pairwise (StandsBefore num came) := by
  obtain ⟨in_front, in_back, across⟩ := List.pairwise_append.1 ordered
  have behind : ∀ y ∈ longer, StandsBefore num came b y := by
    intro y hy
    rcases List.mem_cons.1 (same.mem_iff.1 hy) with rfl | hy
    · exact standsBefore_of_le le (last b (by simp))
    · exact (List.pairwise_cons.1 in_back).1 y hy
  refine List.pairwise_append.2 ⟨in_front, List.pairwise_cons.2 ⟨behind, sorted⟩, ?_⟩
  intro x hx y hy
  have first := across x hx b List.mem_cons_self
  rcases List.mem_cons.1 hy with rfl | hy
  · exact first
  · rcases List.mem_cons.1 (same.mem_iff.1 hy) with rfl | hy
    · exact standsBefore_of_le (Int.le_trans first.le le) (last x (by simp [hx]))
    · exact across x hx y (List.mem_cons_of_mem b hy)

/-- **An element with a whole number is put in its place**, behind those that came before it. -/
theorem insertBy_int (here : key a = .int (num a)) (there : ∀ x ∈ xs, key x = .int (num x))
    (ordered : xs.Pairwise (StandsBefore num came)) (last : ∀ x ∈ xs, came x a)
    (enough : xs.length ≤ steps) :
    ∃ ys, insertBy key a steps xs = .ok ys ∧ ys.Pairwise (StandsBefore num came) := by
  induction steps generalizing xs with
  | zero =>
    have none : xs = [] := List.length_eq_zero_iff.1 (Nat.le_zero.1 enough)
    exact ⟨[a], by rw [none]; rfl, List.pairwise_singleton _ a⟩
  | succ steps ih =>
    unfold insertBy
    split
    · exact ⟨[a], rfl, List.pairwise_singleton _ a⟩
    · next b back cut =>
      have parts := take_append_of_drop cut
      have half : (xs.take (xs.length / 2)).length = xs.length / 2 := by
        rw [List.length_take]
        omega
      generalize xs.take (xs.length / 2) = front at parts half
      subst parts
      rw [List.length_append, List.length_cons] at enough half
      obtain ⟨in_front, in_back, -⟩ := List.pairwise_append.1 ordered
      have compared : precedes (key a) (key b) = .ok (decide (num a < num b)) := by
        rw [here, there b (by simp), precedes_int]
      rw [compared]
      by_cases lt : num a < num b
      · obtain ⟨longer, inserted, sorted⟩ := ih (fun x hx => there x (by simp [hx])) in_front
          (fun x hx => last x (by simp [hx])) (by omega)
        refine ⟨longer ++ b :: back, ?_,
          pairwise_insert_front ordered sorted (perm_insertBy inserted) lt⟩
        show (if decide (num a < num b) = true then _ else _) = _
        rw [if_pos (decide_eq_true lt), inserted]
        rfl
      · obtain ⟨longer, inserted, sorted⟩ := ih (fun x hx => there x (by simp [hx]))
          (List.pairwise_cons.1 in_back).2 (fun x hx => last x (by simp [hx])) (by omega)
        have le := Int.not_lt.1 lt
        refine ⟨front ++ b :: longer, ?_,
          pairwise_insert_back ordered sorted (perm_insertBy inserted) le last⟩
        show (if decide (num a < num b) = true then _ else _) = _
        rw [if_neg (by simpa using le), inserted]
        rfl

theorem foldlM_insertBy_int {sorted : List α} (there : ∀ x ∈ sorted ++ xs, key x = .int (num x))
    (ordered : sorted.Pairwise (StandsBefore num came)) (later : xs.Pairwise came)
    (last : ∀ x ∈ sorted, ∀ y ∈ xs, came x y) :
    ∃ ys, xs.foldlM (fun sorted a => insertBy key a sorted.length sorted) sorted = .ok ys ∧
      ys.Pairwise (StandsBefore num came) := by
  induction xs generalizing sorted with
  | nil => exact ⟨sorted, rfl, ordered⟩
  | cons x xs ih =>
    obtain ⟨first, later⟩ := List.pairwise_cons.1 later
    obtain ⟨next, inserted, ordered⟩ := insertBy_int (there x (by simp))
      (fun y hy => there y (by simp [hy])) ordered
      (fun y hy => last y hy x List.mem_cons_self) (Nat.le_refl _)
    have same := perm_insertBy_append inserted xs
    rw [List.foldlM_cons, inserted]
    refine ih (fun y hy => there y (same.mem_iff.1 hy)) ordered later fun y hy z hz => ?_
    rcases List.mem_cons.1 ((perm_insertBy inserted).mem_iff.1 hy) with rfl | hy
    · exact first z hz
    · exact last y hy z (List.mem_cons_of_mem x hz)

/-- **Elements with whole numbers can be put in order**, and are; those with equal numbers stay as
they came. -/
theorem sortBy_int (whole : ∀ x ∈ xs, key x = .int (num x)) (as_came : xs.Pairwise came) :
    ∃ ys, sortBy key xs = .ok ys ∧ ys.Pairwise (StandsBefore num came) := by
  unfold sortBy
  split
  · next a b others =>
    have here := whole a List.mem_cons_self
    have next := whole b (by simp)
    have compared : precedes (key b) (key a) = .ok (decide (num b < num a)) := by
      rw [next, here, precedes_int]
    obtain ⟨run, rest, taken, goes⟩ := runBy_int here
      (fun x hx => whole x (List.mem_cons_of_mem a hx)) (decide (num b < num a))
    rw [← runBy_append taken, ← List.cons_append] at whole as_came
    obtain ⟨run_came, rest_came, across⟩ := List.pairwise_append.1 as_came
    let start := if decide (num b < num a) then (a :: run).reverse else a :: run
    have same : start.Perm (a :: run) := perm_start _ _
    have ordered : start.Pairwise (StandsBefore num came) := by
      show (if _ then _ else _ : List α).Pairwise _
      -- a run that falls has no equal numbers in it, so it may be turned
      split
      · next falls =>
        rw [List.pairwise_reverse]
        refine goes.imp fun lt => .inl ?_
        rw [falls, decide_eq_true_iff] at lt
        exact lt
      · next rises =>
        refine (List.pairwise_and_iff.2 ⟨goes, run_came⟩).imp fun ⟨le, first⟩ => ?_
        rw [Bool.eq_false_iff.2 rises, decide_eq_false_iff_not] at le
        exact standsBefore_of_le (Int.not_lt.1 le) first
    obtain ⟨ys, sorted, ordered⟩ := foldlM_insertBy_int
      (fun x hx => whole x ((same.append_right rest).mem_iff.1 hx)) ordered rest_came
      (fun x hx y hy => across x (same.mem_iff.1 hx) y hy)
    exact ⟨ys, Except.bind_eq_ok.2 ⟨_, compared, Except.bind_eq_ok.2 ⟨_, taken, sorted⟩⟩, ordered⟩
  · next few =>
    cases xs with
    | nil => exact ⟨[], rfl, .nil⟩
    | cons a others =>
      cases others with
      | nil => exact ⟨[a], rfl, List.pairwise_singleton _ a⟩
      | cons b others => exact absurd rfl (few a b others)

end Billfold.Json
