import Billfold.Proofs.Entry.Rewritten
import Billfold.Proofs.Json.Fits
import Billfold.Proofs.Number.Nearest

/-!
# Equal values

Values that are equal need not be the same: a number is equal to a truth value, and the fields of an
object may come in any order.  Among values whose objects have each key once, being equal is an
equivalence all the same.

* `Json.Proper`         each object in the value has each key once
* `Json.proper_of_read` every value that is read is such
* `Json.induct`         induction over a value, with its items and its fields
* `Json.same_refl`, `Json.same_symm`, `Json.same_trans`   the equivalence
-/

namespace Billfold

-- powers of natural numbers are those of the core library, whatever is imported beside this module
attribute [local instance (2000)] instPowNat

/-! ## sizes -/

namespace Quantity

variable {a b c : Quantity}

def IsProper : Quantity → Prop
  | exact _ d => 0 < d
  | infinite _ => True
  | nan => True

theorem compare_exact {m n : Int} {d e : Nat} :
    (exact m d).compare (exact n e) = some .eq ↔ m * e = n * d := by
  show some (Ord.compare (m * (e : Int)) (n * d)) = some .eq ↔ _
  rw [Option.some.injEq]
  exact Int.compare_eq_eq

theorem compare_infinite {p q : Bool} :
    (infinite p).compare (infinite q) = some .eq ↔ p = q := by
  cases p <;> cases q <;> decide

theorem compare_symm (h : a.compare b = some .eq) : b.compare a = some .eq := by
  cases a with
  | exact m d =>
    cases b with
    | exact n e => exact compare_exact.2 (compare_exact.1 h).symm
    | infinite q => cases q <;> cases h
    | nan => cases h
  | infinite p =>
    cases b with
    | exact n e => cases p <;> cases h
    | infinite q => exact compare_infinite.2 (compare_infinite.1 h).symm
    | nan => cases h
  | nan => cases h

theorem compare_trans (proper : b.IsProper) (h : a.compare b = some .eq)
    (h' : b.compare c = some .eq) : a.compare c = some .eq := by
  cases a with
  | exact m d =>
    cases b with
    | exact n e =>
      cases c with
      | exact k f =>
        have first := compare_exact.1 h
        have second := compare_exact.1 h'
        have pos : (e : Int) ≠ 0 := by
          have : 0 < e := proper
          omega
        rw [compare_exact]
        refine Int.eq_of_mul_eq_mul_right pos ?_
        calc m * f * e = m * e * f := Int.mul_right_comm m f e
          _ = n * f * d := by rw [first, Int.mul_right_comm]
          _ = k * d * e := by rw [second, Int.mul_right_comm]
      | infinite q => cases q <;> cases h'
      | nan => cases h'
    | infinite q => cases q <;> cases h
    | nan => cases h
  | infinite p =>
    cases b with
    | exact n e => cases p <;> cases h
    | infinite q =>
      rw [compare_infinite.1 h]
      exact h'
    | nan => cases h
  | nan => cases h

end Quantity

namespace Json

variable {x y z : Json} {a : Quantity}

theorem proper_of_quantity? (h : x.quantity? = some a) : a.IsProper := by
  cases x with
  | bool b => cases h; exact Nat.one_pos
  | int n => cases h; exact Nat.one_pos
  | float f =>
    cases f with
    | finite negative significand exponent =>
      cases h
      exact (Binary64.ratio_ratio significand exponent).1
    | infinite negative => cases h; trivial
    | nan => cases h; trivial
  | _ => cases h

/-- a number that has a size is equal to those of the same size -/
theorem same_iff_of_size (size : x.quantity? = some a) (number : a ≠ .nan) :
    x.same y = true ↔ ∃ b, y.quantity? = some b ∧ a.compare b = some .eq := by
  have compared : x.same y = (compareSize x y == some .eq) := by
    cases x with
    | bool | int => cases y <;> rfl
    | float f =>
      cases f with
      | finite | infinite => cases y <;> rfl
      | nan => cases size; exact absurd rfl number
    | _ => cases size
  rw [compared, beq_iff_eq]
  unfold compareSize
  rw [size]
  show (y.quantity?.bind fun b => a.compare b) = some .eq ↔ _
  exact Option.bind_eq_some_iff

/-! ## values as trees -/

mutual

def Proper : Json → Prop
  | list items => ProperItems items
  | object fields => (fields.map Prod.fst).Nodup ∧ ProperFields fields
  | _ => True

def ProperItems : List Json → Prop
  | [] => True
  | item :: rest => Proper item ∧ ProperItems rest

def ProperFields : List (String × Json) → Prop
  | [] => True
  | (_, value) :: rest => Proper value ∧ ProperFields rest

end

theorem induct {P : Json → Prop} (null : P null) (bool : ∀ b, P (bool b)) (int : ∀ n, P (int n))
    (float : ∀ f, P (float f)) (text : ∀ s, P (text s)) (unpaired : P unpaired)
    (list : ∀ items, (∀ v ∈ items, P v) → P (list items))
    (object : ∀ fields : Fields, (∀ f ∈ fields, P f.2) → P (object fields)) : ∀ v, P v
  | .null => null
  | .bool b => bool b
  | .int n => int n
  | .float f => float f
  | .text s => text s
  | .unpaired => unpaired
  | .list items => list items fun v _ =>
    induct null bool int float text unpaired list object v
  | .object fields => object fields fun f _ =>
    induct null bool int float text unpaired list object f.2
termination_by v => sizeOf v
decreasing_by
  · rename_i mem
    have := List.sizeOf_lt_of_mem mem
    show sizeOf v < sizeOf (Json.list items)
    rw [Json.list.sizeOf_spec]
    omega
  · rename_i mem
    have := List.sizeOf_lt_of_mem mem
    have : sizeOf f.2 < sizeOf f := by
      cases f
      simp
    show sizeOf f.2 < sizeOf (Json.object fields)
    rw [Json.object.sizeOf_spec]
    omega

theorem properItems_iff {items : List Json} : ProperItems items ↔ ∀ v ∈ items, v.Proper := by
  induction items with
  | nil => exact ⟨fun _ _ h => absurd h List.not_mem_nil, fun _ => trivial⟩
  | cons v items ih =>
    rw [List.forall_mem_cons, ← ih]
    exact Iff.rfl

theorem properFields_iff {fields : Fields} : ProperFields fields ↔ ∀ f ∈ fields, f.2.Proper := by
  induction fields with
  | nil => exact ⟨fun _ _ h => absurd h List.not_mem_nil, fun _ => trivial⟩
  | cons f fields ih =>
    rw [List.forall_mem_cons, ← ih]
    exact Iff.rfl

theorem proper_object_iff {fields : Fields} : (object fields).Proper ↔ fields.Each Proper := by
  constructor
  · rintro ⟨keys, values⟩
    exact ⟨keys, properFields_iff.1 values⟩
  · rintro ⟨keys, values⟩
    exact ⟨keys, properFields_iff.2 values⟩

theorem fitItems_iff {depth : Nat} {items : List Json} :
    FitItems depth items ↔ ∀ v ∈ items, v.Fits depth := by
  induction items with
  | nil => exact ⟨fun _ _ h => absurd h List.not_mem_nil, fun _ => trivial⟩
  | cons v items ih =>
    rw [List.forall_mem_cons, ← ih]
    exact Iff.rfl

theorem Fits.proper {depth : Nat} (h : x.Fits depth) : x.Proper := by
  induction x using Json.induct generalizing depth with
  | list items ih =>
    obtain ⟨-, fit⟩ := h
    exact properItems_iff.2 fun v mem => ih v mem (fitItems_iff.1 fit v mem)
  | object fields ih =>
    obtain ⟨-, keys, fit⟩ := h
    exact ⟨keys, properFields_iff.2 fun f mem => ih f mem (fitFields_iff.1 fit f mem)⟩
  | _ => trivial

/-- **Every value that is read has each key once.** -/
theorem proper_of_read {s : List Char} (h : read s = .ok x) : x.Proper := (fits_of_read h).proper

/-! ## equality of lists and of objects -/

theorem sameItems_iff {xs ys : List Json} :
    sameItems xs ys = true ↔ xs.length = ys.length ∧
      ∀ (i : Nat) (x y : Json), xs[i]? = some x → ys[i]? = some y → x.same y = true := by
  induction xs generalizing ys with
  | nil => cases ys <;> simp [sameItems]
  | cons x xs ih =>
    cases ys with
    | nil => simp [sameItems]
    | cons y ys =>
      rw [sameItems, Bool.and_eq_true, ih, List.length_cons, List.length_cons, Nat.succ_inj]
      constructor
      · rintro ⟨first, length, rest⟩
        refine ⟨length, fun i x' y' at_x at_y => ?_⟩
        cases i with
        | zero => cases at_x; cases at_y; exact first
        | succ i => exact rest i x' y' at_x at_y
      · rintro ⟨length, each⟩
        exact ⟨each 0 x y rfl rfl, length, fun i => each (i + 1)⟩

theorem sameFields_iff {xs ys : Fields} :
    sameFields xs ys = true ↔ ∀ f ∈ xs, ∃ y, ys.get? f.1 = some y ∧ f.2.same y = true := by
  induction xs with
  | nil => exact ⟨fun _ _ h => absurd h List.not_mem_nil, fun _ => by rw [sameFields]⟩
  | cons f xs ih =>
    rw [sameFields, Bool.and_eq_true, ih, List.forall_mem_cons]
    refine and_congr_left fun _ => ?_
    cases found : ys.get? f.1 with
    | none => simp
    | some y => simp

theorem same_object_iff {xs ys : Fields} :
    (object xs).same (object ys) = true ↔
      xs.length = ys.length ∧ ∀ f ∈ xs, ∃ y, ys.get? f.1 = some y ∧ f.2.same y = true := by
  rw [same, Bool.and_eq_true, decide_eq_true_eq, sameFields_iff]

theorem same_list {xs : List Json} (h : (list xs).same y = true) :
    ∃ ys, y = list ys ∧ sameItems xs ys = true := by
  cases y with
  | list ys =>
    rw [same] at h
    exact ⟨ys, rfl, h⟩
  | _ => cases h

/-! ## the equivalence -/

theorem same_refl (proper : x.Proper) : x.same x = true := by
  induction x using induct with
  | null => rfl
  | unpaired => rfl
  | text s => exact decide_eq_true rfl
  | bool b => cases b <;> rfl
  | int n => exact (same_iff_of_size rfl (by nofun)).2 ⟨_, rfl, Quantity.compare_exact.2 rfl⟩
  | float f =>
    cases f with
    | finite => exact (same_iff_of_size rfl (by nofun)).2 ⟨_, rfl, Quantity.compare_exact.2 rfl⟩
    | infinite p =>
      exact (same_iff_of_size rfl (by nofun)).2 ⟨_, rfl, Quantity.compare_infinite.2 rfl⟩
    | nan => rfl
  | list items ih =>
    rw [same, sameItems_iff]
    refine ⟨rfl, fun i v w at_v at_w => ?_⟩
    cases at_v.symm.trans at_w
    have mem := List.mem_of_getElem? at_v
    exact ih v mem (properItems_iff.1 proper v mem)
  | object fields ih =>
    rw [same_object_iff]
    refine ⟨rfl, fun f mem => ⟨f.2, Fields.get?_of_mem proper.1 mem, ?_⟩⟩
    exact ih f mem (properFields_iff.1 proper.2 f mem)

theorem keys_of_same {xs ys : Fields} (keys : (xs.map Prod.fst).Nodup)
    (length : xs.length = ys.length) (each : ∀ f ∈ xs, ∃ y, ys.get? f.1 = some y)
    {g : String × Json} (mem : g ∈ ys) : ∃ x, (g.1, x) ∈ xs := by
  have sub : xs.map Prod.fst ⊆ ys.map Prod.fst := by
    intro key here
    obtain ⟨f, hf, rfl⟩ := List.mem_map.1 here
    obtain ⟨y, found⟩ := each f hf
    exact List.mem_map.2 ⟨(f.1, y), Fields.mem_of_get? found, rfl⟩
  have perm : (xs.map Prod.fst).Perm (ys.map Prod.fst) := by
    refine (List.subperm_of_subset keys sub).perm_of_length_le ?_
    rw [List.length_map, List.length_map, length]
  obtain ⟨f, hf, same⟩ := List.mem_map.1 (perm.mem_iff.2 (List.mem_map_of_mem (f := Prod.fst) mem))
  exact ⟨f.2, same ▸ hf⟩

theorem same_symm_of_size (size : x.quantity? = some a) (number : a ≠ .nan)
    (h : x.same y = true) : y.same x = true := by
  obtain ⟨b, size', equal⟩ := (same_iff_of_size size number).1 h
  have back := Quantity.compare_symm equal
  refine (same_iff_of_size size' ?_).2 ⟨a, size, back⟩
  rintro rfl
  cases back

theorem same_symm (proper : x.Proper) (proper' : y.Proper) (h : x.same y = true) :
    y.same x = true := by
  induction x using induct generalizing y with
  | null => cases y <;> first | rfl | cases h
  | unpaired => cases y <;> first | rfl | cases h
  | text s =>
    cases y with
    | text t => exact decide_eq_true (of_decide_eq_true h).symm
    | _ => cases h
  | bool b => exact same_symm_of_size rfl (by nofun) h
  | int n => exact same_symm_of_size rfl (by nofun) h
  | float f =>
    cases f with
    | finite => exact same_symm_of_size rfl (by nofun) h
    | infinite p => exact same_symm_of_size rfl (by nofun) h
    | nan =>
      cases y with
      | float g => cases g <;> first | rfl | cases h
      | _ => cases h
  | list items ih =>
    obtain ⟨items', rfl, equal⟩ := same_list h
    obtain ⟨length, each⟩ := sameItems_iff.1 equal
    rw [same, sameItems_iff]
    refine ⟨length.symm, fun i w v at_w at_v => ?_⟩
    have mem := List.mem_of_getElem? at_v
    exact ih v mem (properItems_iff.1 proper v mem)
      (properItems_iff.1 proper' w (List.mem_of_getElem? at_w)) (each i v w at_v at_w)
  | object fields ih =>
    obtain ⟨fields', rfl, -⟩ := same_object h
    obtain ⟨length, each⟩ := same_object_iff.1 h
    refine same_object_iff.2 ⟨length.symm, fun g mem => ?_⟩
    obtain ⟨x, here⟩ := keys_of_same proper.1 length
      (fun f mem => (each f mem).imp fun y h => h.1) mem
    obtain ⟨y, found, equal⟩ := each _ here
    have own := Fields.get?_of_mem proper'.1 mem
    cases found.symm.trans own
    refine ⟨x, Fields.get?_of_mem proper.1 here, ?_⟩
    exact ih _ here (properFields_iff.1 proper.2 _ here) (properFields_iff.1 proper'.2 g mem) equal

theorem same_trans_of_size (size : x.quantity? = some a) (number : a ≠ .nan)
    (h : x.same y = true) (h' : y.same z = true) : x.same z = true := by
  obtain ⟨b, size', equal⟩ := (same_iff_of_size size number).1 h
  have number' : b ≠ .nan := by
    rintro rfl
    cases Quantity.compare_symm equal
  obtain ⟨c, size'', equal'⟩ := (same_iff_of_size size' number').1 h'
  refine (same_iff_of_size size number).2 ⟨c, size'', ?_⟩
  exact Quantity.compare_trans (proper_of_quantity? size') equal equal'

theorem same_trans (proper : y.Proper) (h : x.same y = true) (h' : y.same z = true) :
    x.same z = true := by
  induction x using induct generalizing y z with
  | null => cases y <;> first | exact h' | cases h
  | unpaired => cases y <;> first | exact h' | cases h
  | text s =>
    cases y with
    | text t =>
      cases of_decide_eq_true h
      exact h'
    | _ => cases h
  | bool b => exact same_trans_of_size rfl (by nofun) h h'
  | int n => exact same_trans_of_size rfl (by nofun) h h'
  | float f =>
    cases f with
    | finite => exact same_trans_of_size rfl (by nofun) h h'
    | infinite p => exact same_trans_of_size rfl (by nofun) h h'
    | nan =>
      cases y with
      | float g => cases g <;> first | exact h' | cases h
      | _ => cases h
  | list items ih =>
    obtain ⟨items', rfl, equal⟩ := same_list h
    obtain ⟨items'', rfl, equal'⟩ := same_list h'
    obtain ⟨length, each⟩ := sameItems_iff.1 equal
    obtain ⟨length', each'⟩ := sameItems_iff.1 equal'
    rw [same, sameItems_iff]
    refine ⟨length.trans length', fun i v u at_v at_u => ?_⟩
    obtain ⟨w, at_w⟩ : ∃ w, items'[i]? = some w := by
      have within := (List.getElem?_eq_some_iff.1 at_v).1
      exact ⟨_, List.getElem?_eq_getElem (length ▸ within)⟩
    have proper_w := properItems_iff.1 proper w (List.mem_of_getElem? at_w)
    exact ih v (List.mem_of_getElem? at_v) proper_w (each i v w at_v at_w) (each' i w u at_w at_u)
  | object fields ih =>
    obtain ⟨fields', rfl, -⟩ := same_object h
    obtain ⟨fields'', rfl, -⟩ := same_object h'
    obtain ⟨length, each⟩ := same_object_iff.1 h
    obtain ⟨length', each'⟩ := same_object_iff.1 h'
    refine same_object_iff.2 ⟨length.trans length', fun f mem => ?_⟩
    obtain ⟨w, found, equal⟩ := each f mem
    have here := Fields.mem_of_get? found
    obtain ⟨u, found', equal'⟩ := each' _ here
    exact ⟨u, found', ih f mem (properFields_iff.1 proper.2 _ here) equal equal'⟩

/-! ## equal objects -/

section
variable {xs ys : Fields} {key : String}

theorem get?_none_of_same (proper : (object xs).Proper) (h : (object xs).same (object ys) = true)
    (absent : xs.get? key = none) : ys.get? key = none := by
  obtain ⟨length, each⟩ := same_object_iff.1 h
  cases found : ys.get? key with
  | none => rfl
  | some y =>
    obtain ⟨x, here⟩ := keys_of_same proper.1 length
      (fun f mem => (each f mem).imp fun y h => h.1) (Fields.mem_of_get? found)
    cases absent.symm.trans (Fields.get?_of_mem proper.1 here)

/-- equal objects have equal values at each key, nothing being like nothing -/
theorem get_same (proper : (object xs).Proper) (h : (object xs).same (object ys) = true)
    (key : String) : (xs.get key).same (ys.get key) = true := by
  unfold Fields.get
  cases found : xs.get? key with
  | none =>
    rw [get?_none_of_same proper h found]
    rfl
  | some x =>
    obtain ⟨y, there, equal⟩ := (same_object_iff.1 h).2 _ (Fields.mem_of_get? found)
    rw [there]
    exact equal

theorem ne_nil_of_same (some_field : xs ≠ []) (h : (object xs).same (object ys) = true) :
    ys ≠ [] := by
  rintro rfl
  exact some_field (List.eq_nil_of_length_eq_zero (same_object_iff.1 h).1)

end

theorem eq_text_of_same {t : String} (h : (text t).same y = true) : y = text t := by
  cases y with
  | text u => exact congrArg text (of_decide_eq_true h).symm
  | _ => cases h

theorem text_of_same {t : String} (h : x.same (text t) = true) : x = text t := by
  cases x with
  | text u => exact congrArg text (of_decide_eq_true h)
  | float f => cases f <;> cases h
  | _ => cases h

/-- a text, or nothing -/
def IsWord : Json → Prop
  | .null => True
  | .text _ => True
  | _ => False

theorem IsWord.eq_of_same {x y : Json} (h : x.IsWord) (same : x.same y = true) : y = x := by
  cases x with
  | null => cases y <;> first | rfl | cases same
  | text t => exact eq_text_of_same same
  | _ => cases h

end Json

end Billfold
