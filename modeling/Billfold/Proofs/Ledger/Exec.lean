import Billfold.Ledger.Inquiry
import Billfold.Proofs.Except

/-!
# Operations run

How an operation on a session runs is told twice: what its steps gave on the way, and what all of
them leave as it was.

* `Act.exec_bind_cases`     a chain fails at a step or comes through it
* `Act.exec_transact_cases`, `Act.exec_onFailure_cases`   the operations about failure
* `Act.Within`              every run of an operation stays within a relation of sessions
* `Session.Quiet`           nothing but counters, log and names of requests changes
* `Session.Later`           the scene is the same, and numbers once used stay used
* `Session.Backdrop`        relations that work on the book stays within
-/

namespace Billfold

namespace Act

variable {α β : Type} {s t : Session}

/-! ## steps on the way -/

theorem exec_get (s : Session) : (get : Act Session).exec s = (.ok s, s) := rfl
theorem exec_ofFault (x : Except Fault α) (s : Session) :
    (ofFault x).exec s = (Except.liftFault x, s) := rfl
theorem exec_attempt (act : Act α) (s : Session) :
    (attempt act).exec s = (.ok (act.exec s).1, (act.exec s).2) := rfl

theorem exec_bind_cases {act : Act α} {next : α → Act β} {r : Except Error β}
    (h : (act >>= next).exec s = (r, t)) :
    (∃ e, act.exec s = (.error e, t) ∧ r = .error e) ∨
      ∃ a u, act.exec s = (.ok a, u) ∧ (next a).exec u = (r, t) := by
  rw [exec_bind] at h
  rcases e : act.exec s with ⟨x, u⟩
  rw [e] at h
  cases x with
  | error err => cases h; exact .inl ⟨err, rfl, rfl⟩
  | ok a => exact .inr ⟨a, u, rfl, h⟩

theorem exec_bind_ok {act : Act α} {next : α → Act β} {b : β}
    (h : (act >>= next).exec s = (.ok b, t)) :
    ∃ a u, act.exec s = (.ok a, u) ∧ (next a).exec u = (.ok b, t) := by
  rcases exec_bind_cases h with ⟨e, -, he⟩ | h
  · cases he
  · exact h

theorem exec_bind_of_ok {act : Act α} {next : α → Act β} {a : α} (h : act.exec s = (.ok a, t)) :
    (act >>= next).exec s = (next a).exec t := by
  rw [exec_bind, h]

theorem exec_ofResult_ok {x : Except Error α} {a : α} (h : (ofResult x).exec s = (.ok a, t)) :
    x = .ok a ∧ s = t := by
  cases h
  exact ⟨rfl, rfl⟩

theorem exec_ofFault_ok {x : Except Fault α} {a : α} (h : (ofFault x).exec s = (.ok a, t)) :
    x = .ok a ∧ s = t := by
  obtain ⟨hx, rfl⟩ := exec_ofResult_ok h
  exact ⟨Except.liftFault_eq_ok.1 hx, rfl⟩

theorem exec_ofFault_error {x : Except Fault α} {e : Error}
    (h : (ofFault x).exec s = (.error e, t)) : (∃ f, e = .fault f) ∧ s = t := by
  obtain ⟨hx, rfl⟩ := Prod.mk.inj h
  exact ⟨Except.error_of_liftFault hx, rfl⟩

theorem exec_map (f : α → β) (act : Act α) (s : Session) :
    (f <$> act).exec s = (f <$> (act.exec s).1, (act.exec s).2) := by
  rw [map_eq_pure_bind, exec_bind]
  rcases act.exec s with ⟨_ | a, t⟩
  · rfl
  · rfl

theorem exec_map_cases {f : α → β} {act : Act α} {r : Except Error β}
    (h : (f <$> act).exec s = (r, t)) : ∃ x, act.exec s = (x, t) ∧ r = f <$> x := by
  rw [exec_map] at h
  rcases e : act.exec s with ⟨x, u⟩
  rw [e] at h
  cases h
  exact ⟨x, rfl, rfl⟩

theorem exec_require (x : Option α) (missing : Error) (s : Session) :
    (require x missing).exec s =
      (match x with
        | some a => .ok a
        | none => .error missing, s) := by
  cases x <;> rfl

theorem exec_statement (s : Session) :
    statement.exec s = (if s.storeUp then .ok () else .error (.fault .storeDown), s) := by
  unfold statement
  rw [exec_bind, exec_get]
  cases h : s.storeUp with
  | true => simp only [h]; rfl
  | false => simp only [h]; rfl

theorem exec_needWritable (ok : Bool) (s : Session) :
    (needWritable ok).exec s = (if ok then .ok () else .error (.fault .unwritableText), s) := by
  cases ok <;> rfl

theorem exec_book (s : Session) :
    book.exec s = (if s.storeUp then .ok s.book else .error (.fault .storeDown), s) := by
  unfold book
  rw [exec_bind, exec_statement]
  cases s.storeUp <;> rfl

theorem exec_require_ok {x : Option α} {missing : Error} {a : α}
    (h : (require x missing).exec s = (.ok a, t)) : x = some a ∧ s = t := by
  cases x with
  | none => cases h
  | some b => cases h; exact ⟨rfl, rfl⟩

theorem exec_statement_ok {a : Unit} (h : statement.exec s = (.ok a, t)) :
    s.storeUp = true ∧ s = t := by
  rw [exec_statement] at h
  cases up : s.storeUp with
  | false => rw [up] at h; cases h
  | true => rw [up] at h; cases h; exact ⟨rfl, rfl⟩

theorem exec_book_ok {b : Book} (h : book.exec s = (.ok b, t)) :
    s.storeUp = true ∧ s.book = b ∧ s = t := by
  obtain ⟨_, _, asked, run⟩ := exec_bind_ok h
  obtain ⟨up, rfl⟩ := exec_statement_ok asked
  cases run
  exact ⟨up, rfl, rfl⟩

theorem exec_needWritable_ok {ok : Bool} {a : Unit} (h : (needWritable ok).exec s = (.ok a, t)) :
    ok = true ∧ s = t := by
  cases ok with
  | true => cases h; exact ⟨rfl, rfl⟩
  | false => cases h

/-! ## failure -/

/-- an operation under `transact` comes to its value, or fails with the book as before -/
theorem exec_transact_cases {act : Act α} {r : Except Error α}
    (h : (transact act).exec s = (r, t)) :
    (∃ a, r = .ok a ∧ act.exec s = (.ok a, t)) ∨
      ∃ e u, r = .error e ∧ act.exec s = (.error e, u) ∧ t = { u with book := s.book } := by
  unfold exec transact at h
  unfold exec
  rcases e : act s with ⟨x, u⟩
  rw [e] at h
  cases x with
  | error err => cases h; exact .inr ⟨err, u, rfl, rfl, rfl⟩
  | ok a => cases h; exact .inl ⟨a, rfl, rfl⟩

theorem exec_transact_ok {act : Act α} {a : α} (h : (transact act).exec s = (.ok a, t)) :
    act.exec s = (.ok a, t) := by
  obtain ⟨_, e, ha⟩ | ⟨_, _, e, -⟩ := exec_transact_cases h
  · cases e; exact ha
  · cases e

theorem exec_transact_of_ok {act : Act α} {a : α} (h : act.exec s = (.ok a, t)) :
    (transact act).exec s = (.ok a, t) := by
  unfold exec at h
  unfold exec transact
  rw [h]

theorem exec_transact_error {act : Act α} {e : Error}
    (h : (transact act).exec s = (.error e, t)) : t.book = s.book := by
  obtain ⟨_, e, -⟩ | ⟨_, _, -, -, rfl⟩ := exec_transact_cases h
  · cases e
  · rfl

theorem exec_onFailure_cases {act : Act α} {handle : Error → Act α} {r : Except Error α}
    (h : (onFailure act handle).exec s = (r, t)) :
    (∃ a, r = .ok a ∧ act.exec s = (.ok a, t)) ∨
      ∃ e u, act.exec s = (.error e, u) ∧ (handle e).exec u = (r, t) := by
  unfold exec onFailure at h
  unfold exec
  rcases e : act s with ⟨x, u⟩
  rw [e] at h
  cases x with
  | error err => exact .inr ⟨err, u, rfl, h⟩
  | ok a => cases h; exact .inl ⟨a, rfl, rfl⟩

end Act

/-! ## relations that a run stays within -/

/-- a relation of sessions that holds over many steps once it holds over each -/
class Session.Chain (R : Session → Session → Prop) : Prop where
  refl : ∀ s, R s s
  trans : ∀ {s t u}, R s t → R t u → R s u

namespace Act

variable {α β : Type} {R : Session → Session → Prop}

def Within (R : Session → Session → Prop) (act : Act α) : Prop := ∀ s, R s (act.exec s).2

theorem Within.of_exec {act : Act α} (h : Within R act) {s t : Session} {r : Except Error α}
    (e : act.exec s = (r, t)) : R s t := by
  have := h s
  rwa [e] at this

theorem within_modify {f : Session → Session} (h : ∀ s, R s (f s)) :
    Within R (modify f : Act Unit) := h

theorem within_map {act : Act α} (f : α → β) (h : Within R act) : Within R (f <$> act) := by
  intro s
  rw [exec_map]
  exact h s

theorem within_attempt {act : Act α} (h : Within R act) : Within R (attempt act) := h

variable [Session.Chain R]

theorem within_ofResult (x : Except Error α) : Within R (ofResult x) :=
  fun s => Session.Chain.refl s

theorem within_pure (a : α) : Within R (pure a : Act α) := fun s => Session.Chain.refl s

theorem within_fail (e : Error) : Within R (fail e : Act α) := within_ofResult _

theorem within_ofFault (x : Except Fault α) : Within R (ofFault x) := within_ofResult _

theorem within_get : Within R (get : Act Session) := fun s => Session.Chain.refl s

theorem within_bind {act : Act α} {next : α → Act β} (h : Within R act)
    (hn : ∀ a, Within R (next a)) : Within R (act >>= next) := by
  intro s
  rcases e : (act >>= next).exec s with ⟨r, t⟩
  rcases exec_bind_cases e with ⟨_, ha, -⟩ | ⟨a, u, ha, hb⟩
  · exact h.of_exec ha
  · exact Session.Chain.trans (h.of_exec ha) ((hn a).of_exec hb)

theorem within_require (x : Option α) (missing : Error) : Within R (require x missing) := by
  cases x with
  | none => exact within_fail _
  | some a => exact within_pure a

theorem within_statement : Within R statement :=
  within_bind within_get fun s => by
    split
    · exact within_fail _
    · exact within_pure _

theorem within_book : Within R book :=
  within_bind within_statement fun _ => within_bind within_get fun _ => within_pure _

theorem within_needWritable (ok : Bool) : Within R (needWritable ok) := by
  unfold needWritable
  split
  · exact within_fail _
  · exact within_pure _

theorem within_onFailure {act : Act α} {handle : Error → Act α} (h : Within R act)
    (hh : ∀ e, Within R (handle e)) : Within R (onFailure act handle) := by
  intro s
  rcases e : (onFailure act handle).exec s with ⟨r, t⟩
  rcases exec_onFailure_cases e with ⟨_, -, ha⟩ | ⟨err, u, ha, hb⟩
  · exact h.of_exec ha
  · exact Session.Chain.trans (h.of_exec ha) ((hh err).of_exec hb)

theorem within_mapM {act : α → Act β} (h : ∀ a, Within R (act a)) (as : List α) :
    Within R (as.mapM act) := by
  induction as with
  | nil => exact within_pure _
  | cons a as ih =>
    rw [List.mapM_cons]
    exact within_bind (h a) fun b => within_bind ih fun bs => within_pure _

end Act

/-! ## what stays -/

/-- nothing changes but counters, log and the names given to requests -/
structure Session.Quiet (s t : Session) : Prop where
  settings : t.settings = s.settings
  level : t.level = s.level
  storeUp : t.storeUp = s.storeUp
  clock : t.clock = s.clock
  book : t.book = s.book
  usedIds : t.usedIds = s.usedIds
  refusing : t.refusing = s.refusing
  usedGroups : t.usedGroups = s.usedGroups

instance : Session.Chain Session.Quiet where
  refl _ := ⟨rfl, rfl, rfl, rfl, rfl, rfl, rfl, rfl⟩
  trans h k := ⟨k.1.trans h.1, k.2.trans h.2, k.3.trans h.3, k.4.trans h.4, k.5.trans h.5,
    k.6.trans h.6, k.7.trans h.7, k.8.trans h.8⟩

def Session.SameBook (s t : Session) : Prop := t.book = s.book

instance : Session.Chain Session.SameBook where
  refl _ := rfl
  trans h k := k.trans h

structure Session.Later (s t : Session) : Prop where
  settings : t.settings = s.settings
  level : t.level = s.level
  storeUp : t.storeUp = s.storeUp
  clock : t.clock = s.clock
  usedIds : s.usedIds ≤ t.usedIds
  usedGroups : s.usedGroups ≤ t.usedGroups

instance : Session.Chain Session.Later where
  refl _ := ⟨rfl, rfl, rfl, rfl, Nat.le_refl _, Nat.le_refl _⟩
  trans h k := ⟨k.1.trans h.1, k.2.trans h.2, k.3.trans h.3, k.4.trans h.4, Nat.le_trans h.5 k.5,
    Nat.le_trans h.6 k.6⟩

/-- a relation that holds whatever is done to the book, to the numbers in use and to the log -/
class Session.Backdrop (R : Session → Session → Prop) : Prop extends Session.Chain R where
  book : ∀ (s : Session) (b : Book), R s { s with book := b }
  named : ∀ s : Session, R s { s with usedIds := s.usedIds + 1 }
  grouped : ∀ s : Session, R s { s with usedGroups := s.usedGroups + 1 }
  refusing : ∀ (s : Session) (n : Option Nat), R s { s with refusing := n }
  logged : ∀ (s : Session) (log : List LogEntry), R s { s with log := log }

instance : Session.Backdrop Session.Later where
  book _ _ := ⟨rfl, rfl, rfl, rfl, Nat.le_refl _, Nat.le_refl _⟩
  named _ := ⟨rfl, rfl, rfl, rfl, Nat.le_succ _, Nat.le_refl _⟩
  grouped _ := ⟨rfl, rfl, rfl, rfl, Nat.le_refl _, Nat.le_succ _⟩
  refusing _ _ := ⟨rfl, rfl, rfl, rfl, Nat.le_refl _, Nat.le_refl _⟩
  logged _ _ := ⟨rfl, rfl, rfl, rfl, Nat.le_refl _, Nat.le_refl _⟩

/-- a relation that holds when something is counted -/
def Session.Allows (R : Session → Session → Prop) (c : Counter) : Prop :=
  ∀ (s : Session) (n : Nat), R s { s with counters := s.counters.add c n }

theorem Session.allows_later (c : Counter) : Session.Allows Session.Later c :=
  fun _ _ => ⟨rfl, rfl, rfl, rfl, Nat.le_refl _, Nat.le_refl _⟩

theorem Act.exec_bind_keeps {α β : Type} {act : Act α} {next : α → Act β}
    (keeps : Act.Within Session.SameBook act) {s t : Session} {r : Except Error β}
    (h : (act >>= next).exec s = (r, t)) :
    (∃ e, r = .error e ∧ t.book = s.book) ∨
      ∃ a u, act.exec s = (.ok a, u) ∧ (next a).exec u = (r, t) := by
  rcases exec_bind_cases h with ⟨e, failed, rfl⟩ | h
  · exact .inl ⟨e, rfl, keeps.of_exec failed⟩
  · exact .inr h

theorem Session.Quiet.later {s t : Session} (h : s.Quiet t) : s.Later t :=
  ⟨h.1, h.2, h.3, h.4, Nat.le_of_eq h.6.symm, Nat.le_of_eq h.8.symm⟩

namespace Act

variable {α : Type}

theorem quiet_count (c : Counter) (n : Nat) : Within Session.Quiet (count c n) :=
  within_modify fun _ => ⟨rfl, rfl, rfl, rfl, rfl, rfl, rfl, rfl⟩

theorem quiet_note (level : Level) (message : String) (fields : Fields) :
    Within Session.Quiet (note level message fields) :=
  within_modify fun s => by split <;> exact ⟨rfl, rfl, rfl, rfl, rfl, rfl, rfl, rfl⟩

theorem exec_count (c : Counter) (n : Nat) (s : Session) :
    ∃ t, (count c n).exec s = (.ok (), t) ∧ s.Quiet t := ⟨_, rfl, quiet_count c n s⟩

theorem exec_note (level : Level) (message : String) (fields : Fields) (s : Session) :
    ∃ t, (note level message fields).exec s = (.ok (), t) ∧ s.Quiet t :=
  ⟨_, rfl, quiet_note level message fields s⟩

theorem quiet_freshRequest : Within Session.Quiet freshRequest :=
  within_bind within_get fun _ => within_bind
    (within_modify fun _ => ⟨rfl, rfl, rfl, rfl, rfl, rfl, rfl, rfl⟩) fun _ =>
    within_pure _

theorem exec_freshId (s : Session) :
    freshId.exec s = (.ok s!"id-{s.usedIds + 1}", { s with usedIds := s.usedIds + 1 }) := rfl

/-! ### on the way to another book -/

variable {R : Session → Session → Prop}

theorem within_count {c : Counter} (allows : Session.Allows R c) (n : Nat) :
    Within R (count c n) :=
  within_modify fun s => allows s n

variable [Session.Backdrop R]

theorem within_note (level : Level) (message : String) (fields : Fields) :
    Within R (note level message fields) := by
  refine within_modify fun s => ?_
  split
  · exact Session.Backdrop.logged s _
  · exact Session.Chain.refl s

theorem within_setBook (b : Book) : Within R (setBook b) :=
  within_modify fun s => Session.Backdrop.book s b

theorem within_freshId : Within R freshId := fun s => Session.Backdrop.named s

theorem within_transact {act : Act α} (h : Within R act) : Within R (transact act) := by
  intro s
  rcases e : (transact act).exec s with ⟨r, t⟩
  rcases exec_transact_cases e with ⟨_, -, ha⟩ | ⟨_, u, -, ha, rfl⟩
  · exact h.of_exec ha
  · exact Session.Chain.trans (h.of_exec ha) (Session.Backdrop.book u s.book)

end Act

end Billfold
