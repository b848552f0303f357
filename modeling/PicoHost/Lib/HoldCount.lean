import PicoHost.Lib.Emit
import PicoHost.Lib.RecursiveMutex
import PicoHost.Lib.Run

/-!
# Hold counts

What one task does to a recursive mutex and to the data behind it, as a trace of
events. A trace *leads* from `n` holds to `m` if a task that starts with `n` holds touches
the data only while it holds the mutex and ends with `m`; it is *balanced* if it leads back
to `n`. Traces that lead on from each other compose.

Other events may change the count as well; `effect` says how. `holds_exec` connects
the count with the mutex that the events act on.
-/

namespace PicoHost.HoldCount

universe u v

/-- An event in the life of a task that uses a recursive mutex. -/
inductive Event (α : Type u) where
  | take
  | give
  /-- the task touches what the mutex protects -/
  | access
  | other (a : α)
deriving DecidableEq, Repr

variable {α : Type u} (effect : α → Nat → Nat)

/-- The hold count behind an event. A mutex that the task does not hold cannot be given. -/
def Event.count (n : Nat) : Event α → Nat
  | take => n + 1
  | give => n - 1
  | access => n
  | other a => effect a n

/-- The hold count behind a trace. -/
def count (n : Nat) (trace : List (Event α)) : Nat := trace.foldl (Event.count effect) n

/-- Every access is under the mutex. -/
def Guarded : Nat → List (Event α) → Prop
  | _, [] => True
  | n, e :: rest => (e = .access → 0 < n) ∧ Guarded (e.count effect n) rest

/-- Every access is under the mutex, and the task ends with `m` holds. -/
structure Leads (n m : Nat) (trace : List (Event α)) : Prop where
  guarded : Guarded effect n trace
  count_eq : count effect n trace = m

/-- The task ends with as many holds as before. -/
abbrev Balanced (n : Nat) (trace : List (Event α)) : Prop := Leads effect n n trace

/-- A run of accesses. -/
def accesses (k : Nat) : List (Event α) := List.replicate k .access

section Append

variable {effect} {n : Nat} {l l' : List (Event α)}

/-- The effects of two traces, one after the other -/
theorem count_append : count effect n (l ++ l') = count effect (count effect n l) l' :=
  List.foldl_append

/-- A trace is guarded if its parts are, each from where the one before has left the count. -/
theorem guarded_append :
    Guarded effect n (l ++ l') ↔ Guarded effect n l ∧ Guarded effect (count effect n l) l' := by
  induction l generalizing n with
  | nil => exact ⟨fun h => ⟨trivial, h⟩, fun h => h.2⟩
  | cons e rest ih =>
    constructor
    · rintro ⟨he, h⟩
      obtain ⟨hrest, h'⟩ := ih.mp h
      exact ⟨⟨he, hrest⟩, h'⟩
    · rintro ⟨⟨he, hrest⟩, h'⟩
      exact ⟨he, ih.mpr ⟨hrest, h'⟩⟩

/-- Accesses do not change the count. -/
theorem count_accesses (k : Nat) : count effect n (accesses k) = n := by
  induction k with
  | zero => rfl
  | succ k ih => exact ih

/-- An access without a hold. -/
theorem not_guarded_access {rest : List (Event α)} : ¬ Guarded effect 0 (.access :: rest) :=
  fun h => Nat.lt_irrefl 0 (h.1 rfl)

end Append

namespace Leads

variable {effect} {n m k : Nat} {l l' : List (Event α)}

/-- The empty trace leads nowhere. -/
theorem nil : Leads effect n n [] := ⟨trivial, rfl⟩

/-- Two traces lead as far as one after the other. -/
theorem append (h : Leads effect n m l) (h' : Leads effect m k l') :
    Leads effect n k (l ++ l') where
  guarded := guarded_append.mpr ⟨h.guarded, by rw [h.count_eq]; exact h'.guarded⟩
  count_eq := by rw [count_append, h.count_eq, h'.count_eq]

/-- A take adds one. -/
theorem take : Leads effect n (n + 1) [.take] := ⟨⟨nofun, trivial⟩, rfl⟩

/-- A give takes one away. -/
theorem give : Leads effect (n + 1) n [.give] := ⟨⟨nofun, trivial⟩, rfl⟩

/-- An access is allowed to a holder and leaves the count. -/
theorem access (hn : 0 < n) : Leads effect n n [.access] := ⟨⟨fun _ => hn, trivial⟩, rfl⟩

/-- Any number of accesses is allowed to a holder and leaves the count. -/
theorem accesses (hn : 0 < n) (k : Nat) : Leads effect n n (accesses k) := by
  induction k with
  | zero => exact nil
  | succ k ih => exact (access hn).append ih

/-- Any other event leads where its effect says. -/
theorem other {a : α} (h : effect a n = m) : Leads effect n m [.other a] :=
  ⟨⟨nofun, trivial⟩, h⟩

end Leads

/-! ## Code that emits such events -/

section Emitted

variable {α : Type} {effect : α → Nat → Nat} {β γ : Type} {x : Emit (Event α) β}
  {f : β → Emit (Event α) γ} {n m k : Nat}

/-- A computation without events leads nowhere. -/
theorem Leads.pure (b : β) : Leads effect n n (Pure.pure b : Emit (Event α) β).events := .nil

/-- Code that goes on, whatever the first part returns. -/
theorem Leads.bind (hx : Leads effect n m x.events) (hf : ∀ b, Leads effect m k (f b).events) :
    Leads effect n k (x >>= f).events :=
  hx.append (hf x.value)

/-- Code that accesses the data and does nothing else. -/
theorem Leads.of_only (h : Emit.Only .access x) (hn : 0 < n) : Leads effect n n x.events := by
  rw [h.eq_replicate]
  exact Leads.accesses hn _

end Emitted

/-! ## The mutex itself -/

section Mutex

variable {τ : Type v} [DecidableEq τ]

/-- How often the task holds the mutex. -/
def holds (task : τ) : RecursiveMutex τ → Nat
  | .free => 0
  | .held holder again => if holder = task then again + 1 else 0

/-- Taking the mutex adds a hold. -/
theorem holds_take {task : τ} {m m' : RecursiveMutex τ} (h : m.take task = some m') :
    holds task m' = holds task m + 1 := by
  cases m with
  | free =>
    cases h
    exact if_pos rfl
  | held holder again =>
    rw [RecursiveMutex.take] at h
    split at h
    next heq =>
      cases h
      simp [holds, heq]
    next => cases h

/-- Giving it back takes one hold away. -/
theorem holds_give (task : τ) (m : RecursiveMutex τ) :
    holds task (m.give task) = holds task m - 1 := by
  cases m with
  | free => rfl
  | held holder again =>
    by_cases heq : holder = task
    · cases again <;> simp [RecursiveMutex.give, holds, heq]
    · cases again <;> simp [RecursiveMutex.give, holds, heq]

/-- An event of the task on the mutex. `none`: another task holds it. -/
def Event.act (task : τ) (act : RecursiveMutex τ → α → RecursiveMutex τ)
    (m : RecursiveMutex τ) : Event α → Option (RecursiveMutex τ)
  | take => m.take task
  | give => some (m.give task)
  | access => some m
  | other a => some (act m a)

variable {task : τ} {act : RecursiveMutex τ → α → RecursiveMutex τ}

/-- The mutex counts as the trace does. -/
theorem holds_act (hother : ∀ m a, holds task (act m a) = effect a (holds task m))
    {m m' : RecursiveMutex τ} {e : Event α} (h : e.act task act m = some m') :
    holds task m' = e.count effect (holds task m) := by
  cases e with
  | take => exact holds_take h
  | give =>
    cases h
    exact holds_give task m
  | access =>
    cases h
    rfl
  | other a =>
    cases h
    exact hother m a

/-- The count is what the mutex counts. -/
theorem holds_exec (hother : ∀ m a, holds task (act m a) = effect a (holds task m))
    {trace : List (Event α)} {m m' : RecursiveMutex τ}
    (h : Machine.exec (Event.act task act) m trace = some m') :
    holds task m' = count effect (holds task m) trace := by
  induction trace generalizing m with
  | nil =>
    cases h
    rfl
  | cons e rest ih =>
    obtain ⟨m₁, he, hrest⟩ := Machine.exec_cons_some.mp h
    rw [ih hrest, holds_act effect hother he]
    rfl

/-- The task does not have to wait for the mutex. -/
def Takeable (task : τ) (m : RecursiveMutex τ) : Prop := (m.take task).isSome

/-- Two mutexes that the task can take and holds as often are the same. -/
theorem Takeable.ext {m m' : RecursiveMutex τ} (h : Takeable task m) (h' : Takeable task m')
    (heq : holds task m = holds task m') : m = m' := by
  have hcases : ∀ {m : RecursiveMutex τ}, Takeable task m →
      m = .free ∨ ∃ again, m = .held task again := by
    intro m h
    cases m with
    | free => exact .inl rfl
    | held holder again =>
      rw [Takeable, RecursiveMutex.take] at h
      split at h
      next hholder => exact .inr ⟨again, by rw [hholder]⟩
      next => cases h
  rcases hcases h with rfl | ⟨again, rfl⟩ <;> rcases hcases h' with rfl | ⟨again', rfl⟩
  · rfl
  · simp [holds] at heq
  · simp [holds] at heq
  · simp only [holds, if_pos, Nat.add_right_cancel_iff] at heq
    rw [heq]

/-- Where the mutex can be taken, every event can happen, and it still can be taken. -/
theorem takeable_act (hother : ∀ m a, Takeable task m → Takeable task (act m a))
    {m : RecursiveMutex τ} (hm : Takeable task m) (e : Event α) :
    ∃ m', e.act task act m = some m' ∧ Takeable task m' := by
  cases e with
  | take =>
    obtain ⟨m', hm'⟩ := Option.isSome_iff_exists.mp hm
    refine ⟨m', hm', ?_⟩
    cases m with
    | free =>
      cases hm'
      simp [Takeable, RecursiveMutex.take]
    | held holder again =>
      rw [RecursiveMutex.take] at hm'
      split at hm'
      next heq =>
        cases hm'
        simp [Takeable, RecursiveMutex.take, heq]
      next => cases hm'
  | give =>
    refine ⟨m.give task, rfl, ?_⟩
    cases m with
    | free => exact hm
    | held holder again =>
      rw [Takeable, RecursiveMutex.take] at hm
      split at hm
      next heq => cases again <;> simp [Takeable, RecursiveMutex.give, RecursiveMutex.take, heq]
      next => cases hm
  | access => exact ⟨m, rfl, hm⟩
  | other a => exact ⟨act m a, rfl, hother m a hm⟩

/-- A balanced trace of a task that does not have to wait leaves the mutex as it was. -/
theorem exec_of_balanced (hother : ∀ m a, holds task (act m a) = effect a (holds task m))
    (htake : ∀ m a, Takeable task m → Takeable task (act m a)) {m : RecursiveMutex τ}
    (hm : Takeable task m) {trace : List (Event α)} (h : Balanced effect (holds task m) trace) :
    Machine.exec (Event.act task act) m trace = some m := by
  have hexec : ∀ (trace : List (Event α)) {m : RecursiveMutex τ}, Takeable task m →
      ∃ m', Machine.exec (Event.act task act) m trace = some m' ∧ Takeable task m' := by
    intro trace
    induction trace with
    | nil => exact fun hm => ⟨_, rfl, hm⟩
    | cons e rest ih =>
      intro m hm
      obtain ⟨m₁, he, hm₁⟩ := takeable_act htake hm e
      obtain ⟨m', hrest, hm'⟩ := ih hm₁
      exact ⟨m', Machine.exec_cons_some.mpr ⟨m₁, he, hrest⟩, hm'⟩
  obtain ⟨m', hm', htakeable⟩ := hexec trace hm
  rw [hm', htakeable.ext hm ((holds_exec effect hother hm').trans h.count_eq)]

end Mutex

end PicoHost.HoldCount
