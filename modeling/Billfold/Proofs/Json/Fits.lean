import Billfold.Json.Reader
import Billfold.Proofs.Except
import Billfold.Proofs.Number.Digits
import Billfold.Proofs.Number.Nearest

/-!
# What JSON text can write

* `Json.Fits`           a value that JSON text can write: whole numbers are not too long,
                        floating-point numbers are rounded, a key comes once, and lists and objects
                        are not too many inside each other
* `Json.fits_of_read`   every value that is read is one
-/

namespace Billfold

-- powers of natural numbers are those of the core library, whatever is imported beside this module
attribute [local instance (2000)] instPowNat

namespace Json

mutual

/-- a value that JSON text can write, at most `depth` lists and objects inside each other -/
def Fits (depth : Nat) : Json → Prop
  | int n => n.natAbs < 10 ^ maxWholeDigits
  | float x => x.IsStandard
  | list items => 0 < depth ∧ FitItems (depth - 1) items
  | object fields => 0 < depth ∧ (fields.map Prod.fst).Nodup ∧ FitFields (depth - 1) fields
  | _ => True

def FitItems (depth : Nat) : List Json → Prop
  | [] => True
  | item :: rest => Fits depth item ∧ FitItems depth rest

def FitFields (depth : Nat) : List (String × Json) → Prop
  | [] => True
  | (_, value) :: rest => Fits depth value ∧ FitFields depth rest

end

theorem fitFields_iff {depth : Nat} {fields : Fields} :
    FitFields depth fields ↔ ∀ f ∈ fields, f.2.Fits depth := by
  induction fields with
  | nil => exact ⟨fun _ _ h => absurd h List.not_mem_nil, fun _ => trivial⟩
  | cons f fields ih =>
    rw [List.forall_mem_cons, ← ih]
    exact Iff.rfl

end Json

namespace Fields

theorem map_set (key : String) (value : Json) (fs : Fields) :
    (set key value fs).map Prod.fst =
      if key ∈ fs.map Prod.fst then fs.map Prod.fst else fs.map Prod.fst ++ [key] := by
  induction fs with
  | nil => rfl
  | cons f fs ih =>
    by_cases same : f.1 = key
    · simp [set, same]
    · rw [set, if_neg same, List.map_cons, ih, List.map_cons]
      by_cases mem : key ∈ fs.map Prod.fst
      · simp [mem]
      · simp [mem, Ne.symm same]

theorem nodup_set {fs : Fields} (key : String) (value : Json) (h : (fs.map Prod.fst).Nodup) :
    ((set key value fs).map Prod.fst).Nodup := by
  rw [map_set]
  split
  · exact h
  · exact List.nodup_append.2 ⟨h, List.nodup_singleton key, fun a ha b hb => by
      rw [List.mem_singleton.1 hb]
      rintro rfl
      exact absurd ha ‹_›⟩

theorem mem_set {key : String} {value : Json} {fs : Fields} {f : String × Json}
    (h : f ∈ set key value fs) : f ∈ fs ∨ f = (key, value) := by
  induction fs with
  | nil => exact .inr (List.mem_singleton.1 h)
  | cons g fs ih =>
    by_cases same : g.1 = key
    · rw [set, if_pos same, List.mem_cons, same] at h
      rcases h with rfl | h
      · exact .inr rfl
      · exact .inl (List.mem_cons_of_mem _ h)
    · rw [set, if_neg same, List.mem_cons] at h
      rcases h with rfl | h
      · exact .inl List.mem_cons_self
      · rcases ih h with h | h
        · exact .inl (List.mem_cons_of_mem _ h)
        · exact .inr h

theorem ofPairs_spec (pairs : List (String × Json)) :
    ((ofPairs pairs).map Prod.fst).Nodup ∧ ∀ f ∈ ofPairs pairs, f ∈ pairs := by
  have onto : ∀ (pairs fs : Fields), (fs.map Prod.fst).Nodup →
      ((pairs.foldl (fun fs f => set f.1 f.2 fs) fs).map Prod.fst).Nodup ∧
        ∀ f ∈ pairs.foldl (fun fs f => set f.1 f.2 fs) fs, f ∈ fs ∨ f ∈ pairs := by
    intro pairs
    induction pairs with
    | nil => exact fun fs keys => ⟨keys, fun f h => .inl h⟩
    | cons g pairs ih =>
      intro fs keys
      obtain ⟨keys', values⟩ := ih (set g.1 g.2 fs) (nodup_set g.1 g.2 keys)
      refine ⟨keys', fun f h => ?_⟩
      rcases values f h with h | h
      · rcases mem_set h with h | rfl
        · exact .inl h
        · exact .inr List.mem_cons_self
      · exact .inr (List.mem_cons_of_mem _ h)
  obtain ⟨keys, values⟩ := onto pairs [] List.nodup_nil
  exact ⟨keys, fun f h => (values f h).resolve_left List.not_mem_nil⟩

theorem set_of_not_mem {key : String} {fs : Fields} (value : Json) (h : key ∉ fs.map Prod.fst) :
    set key value fs = fs ++ [(key, value)] := by
  induction fs with
  | nil => rfl
  | cons f fs ih =>
    rw [List.map_cons, List.mem_cons, not_or] at h
    rw [set, if_neg (Ne.symm h.1), ih h.2, List.cons_append]

theorem ofPairs_of_nodup {pairs : List (String × Json)} (h : (pairs.map Prod.fst).Nodup) :
    ofPairs pairs = pairs := by
  have onto : ∀ (pairs fs : Fields), ((fs ++ pairs).map Prod.fst).Nodup →
      pairs.foldl (fun fs f => set f.1 f.2 fs) fs = fs ++ pairs := by
    intro pairs
    induction pairs with
    | nil => exact fun fs _ => (List.append_nil fs).symm
    | cons f pairs ih =>
      intro fs keys
      have new : f.1 ∉ fs.map Prod.fst := by
        rw [List.map_append, List.map_cons, List.nodup_append] at keys
        exact fun mem => keys.2.2 _ mem _ List.mem_cons_self rfl
      rw [List.foldl_cons, set_of_not_mem f.2 new, ih _ (by simpa using keys)]
      simp
  exact onto pairs [] h

end Fields

namespace Json

variable {depth fuel : Nat} {c c' : Cursor} {v : Json}

theorem wholeDigits_isDigit {cs : List Char} {c : Char} (h : c ∈ wholeDigits cs) :
    c.isDigit = true := by
  unfold wholeDigits at h
  split at h
  · rw [List.mem_singleton.1 h]
    rfl
  · exact List.all_eq_true.1 List.all_takeWhile _ h

theorem fits_of_readNumber (h : readNumber c = .ok (v, c')) : v.Fits depth := by
  unfold readNumber at h
  dsimp only at h
  generalize c.rest.drop _ = cs at h
  generalize (if (fractionDigits _).isEmpty then 0 else _) = points at h
  split at h
  · cases h
  · split at h
    · split at h
      · cases h
      · cases h
        have small := ofNumeral_lt fun c (h : c ∈ wholeDigits cs) => wholeDigits_isDigit h
        have pow : 10 ^ (wholeDigits cs).length ≤ 10 ^ maxWholeDigits :=
          Nat.pow_le_pow_right (by decide) (Nat.not_lt.1 ‹_›)
        show Int.natAbs _ < 10 ^ maxWholeDigits
        split <;> omega
    · cases h
      exact Binary64.isStandard_ofDecimal _ _ _

theorem fits_of_readWord? (h : readWord? c = some (v, c')) : v.Fits depth := by
  obtain ⟨found, mem, word⟩ := List.exists_of_findSome?_eq_some h
  have same : found.2 = v := by
    obtain ⟨_, -, same⟩ := Option.map_eq_some_iff.1 word
    exact congrArg Prod.fst same
  rw [← same]
  simp only [wordValues, List.mem_cons, List.not_mem_nil, or_false] at mem
  rcases mem with rfl | rfl | rfl | rfl | rfl | rfl <;> trivial

theorem fits_value (cs : Chars) : cs.value.Fits depth := by
  unfold Chars.value
  split <;> trivial

theorem fits_field (key : Chars) (h : v.Fits depth) : (key.field v).2.Fits depth := by
  unfold Chars.field
  dsimp only
  split
  · exact h
  · trivial

theorem fits_object {pairs : List (String × Json)} (deep : 0 < depth)
    (h : FitFields (depth - 1) pairs) : (Json.object (Fields.ofPairs pairs)).Fits depth := by
  obtain ⟨keys, values⟩ := Fields.ofPairs_spec pairs
  exact ⟨deep, keys, fitFields_iff.2 fun f mem => fitFields_iff.1 h f (values f mem)⟩

/-! ## the reader, by its fuel -/

/-- with so much fuel the reader gives such values only -/
def GivesFits (fuel : Nat) : Prop :=
  (∀ depth c v c', readValue depth fuel c = .ok (v, c') → v.Fits depth) ∧
    (∀ depth c items c', readItems depth fuel c = .ok (items, c') → FitItems depth items) ∧
    ∀ depth c fields c', readFields depth fuel c = .ok (fields, c') → FitFields depth fields

theorem fits_of_readValue_succ (ih : GivesFits fuel)
    (h : readValue depth (fuel + 1) c = .ok (v, c')) : v.Fits depth := by
  rw [readValue] at h
  split at h
  · obtain ⟨⟨cs, _⟩, -, h⟩ := Except.bind_eq_ok.1 h
    cases h
    exact fits_value cs
  · split at h
    · cases h
    · have deep : 0 < depth := Nat.pos_of_ne_zero ‹_›
      dsimp only at h
      split at h
      · cases h
        exact ⟨deep, trivial⟩
      · obtain ⟨⟨items, _⟩, read, h⟩ := Except.bind_eq_ok.1 h
        cases h
        exact ⟨deep, ih.2.1 _ _ _ _ read⟩
  · split at h
    · cases h
    · have deep : 0 < depth := Nat.pos_of_ne_zero ‹_›
      dsimp only at h
      split at h
      · cases h
        exact ⟨deep, List.nodup_nil, trivial⟩
      · obtain ⟨⟨fields, _⟩, read, h⟩ := Except.bind_eq_ok.1 h
        cases h
        exact fits_object deep (ih.2.2 _ _ _ _ read)
  · split at h
    · cases h
      exact fits_of_readWord? ‹_›
    · exact fits_of_readNumber h

theorem fits_of_readItems_succ {items : List Json} (ih : GivesFits fuel)
    (h : readItems depth (fuel + 1) c = .ok (items, c')) : FitItems depth items := by
  rw [readItems] at h
  obtain ⟨⟨item, _⟩, read, h⟩ := Except.bind_eq_ok.1 h
  have first := ih.1 _ _ _ _ read
  dsimp only at h
  split at h
  · cases h
    exact ⟨first, trivial⟩
  · obtain ⟨⟨more, _⟩, read, h⟩ := Except.bind_eq_ok.1 h
    cases h
    exact ⟨first, ih.2.1 _ _ _ _ read⟩
  · cases h

theorem fits_of_readFields_succ {fields : List (String × Json)} (ih : GivesFits fuel)
    (h : readFields depth (fuel + 1) c = .ok (fields, c')) : FitFields depth fields := by
  rw [readFields] at h
  split at h
  · obtain ⟨⟨key, _⟩, -, h⟩ := Except.bind_eq_ok.1 h
    dsimp only at h
    split at h
    · obtain ⟨⟨value, _⟩, read, h⟩ := Except.bind_eq_ok.1 h
      have first := fits_field key (ih.1 _ _ _ _ read)
      dsimp only at h
      split at h
      · cases h
        exact ⟨first, trivial⟩
      · obtain ⟨⟨more, _⟩, read, h⟩ := Except.bind_eq_ok.1 h
        cases h
        exact ⟨first, ih.2.2 _ _ _ _ read⟩
      · cases h
    · cases h
  · cases h

theorem givesFits (fuel : Nat) : GivesFits fuel := by
  induction fuel with
  | zero =>
    refine ⟨?_, ?_, ?_⟩
    · intro depth c v c' h
      rw [readValue] at h
      cases h
    · intro depth c items c' h
      rw [readItems] at h
      cases h
    · intro depth c fields c' h
      rw [readFields] at h
      cases h
  | succ fuel ih =>
    exact ⟨fun _ _ _ _ h => fits_of_readValue_succ ih h,
      fun _ _ _ _ h => fits_of_readItems_succ ih h,
      fun _ _ _ _ h => fits_of_readFields_succ ih h⟩

/-- **Every value that is read is one that JSON text can write.** -/
theorem fits_of_read {s : List Char} (h : read s = .ok v) : v.Fits maxDepth := by
  unfold read at h
  obtain ⟨⟨value, _⟩, read, h⟩ := Except.bind_eq_ok.1 h
  dsimp only at h
  split at h
  · cases h
    exact (givesFits _).1 _ _ _ _ read
  · cases h

end Json

end Billfold
