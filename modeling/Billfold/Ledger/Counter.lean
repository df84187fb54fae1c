import Billfold.Plan.Mode

/-!
# Counters

* `Counter`          what is counted
* `Counters`         how often each was
* `Counters.add`     counts some more
* `Counters.count`   how often one was
-/

namespace Billfold

/-- why an entry was stamped, or that it was not -/
inductive StampReason where
  | create
  | relock
  | skipped
deriving DecidableEq, Repr

inductive Resolution where
  | merge
  | dismiss
  | clear
deriving DecidableEq, Repr

namespace StampReason

def text : StampReason → String
  | create => "create"
  | relock => "relock"
  | skipped => "skipped"

end StampReason

namespace Resolution

def text : Resolution → String
  | merge => "merge"
  | dismiss => "dismiss"
  | clear => "clear"

end Resolution

/-- what is counted -/
inductive Counter where
  | stamps (reason : StampReason)
  | plans (mode : Mode)
  | planLines
  | failedBatches
  | resolutions (how : Resolution)
  | requests (endpoint method : String) (status : Nat)
deriving DecidableEq, Repr

namespace Counter

/-- the name of the sample and its labels, by label name -/
def sample : Counter → String × List (String × String)
  | stamps reason => ("ledger_cycle_locks_total", [("reason", reason.text)])
  | plans mode => ("ledger_installment_plans_total", [("mode", mode.text)])
  | planLines => ("ledger_installment_lines_total", [])
  | failedBatches => ("ledger_installment_batch_failures_total", [])
  | resolutions how => ("ledger_duplicate_resolutions_total", [("action", how.text)])
  | requests endpoint method status =>
    ("http_request_duration_seconds_count",
      [("endpoint", endpoint), ("method", method), ("status", toString status)])

def text (c : Counter) : String :=
  c.sample.2.foldl (fun text (label, value) => text ++ " " ++ label ++ "=" ++ value) c.sample.1

end Counter

/-- how often each thing was counted -/
abbrev Counters := List (Counter × Nat)

namespace Counters

/-- counts something `n` times more -/
def add (c : Counter) (n : Nat) : Counters → Counters
  | [] => [(c, n)]
  | (d, m) :: rest => if d = c then (d, m + n) :: rest else (d, m) :: add c n rest

/-- how often something was counted -/
def count (c : Counter) : Counters → Nat
  | [] => 0
  | (d, m) :: rest => if d = c then m else count c rest

@[simp] theorem count_nil (c : Counter) : count c [] = 0 := rfl

@[simp] theorem count_add_self (c : Counter) (n : Nat) (cs : Counters) :
    count c (add c n cs) = count c cs + n := by
  induction cs with
  | nil => simp [add, count]
  | cons d cs ih => by_cases h : d.1 = c <;> simp [add, count, h, ih]

theorem count_add_of_ne {c d : Counter} (n : Nat) (cs : Counters) (h : d ≠ c) :
    count d (add c n cs) = count d cs := by
  induction cs with
  | nil => simp [add, count, h.symm]
  | cons e cs ih =>
    by_cases he : e.1 = c
    · simp [add, count, he, h.symm]
    · simp only [add, if_neg he, count, ih]

end Counters

end Billfold
