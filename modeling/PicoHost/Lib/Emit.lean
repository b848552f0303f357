import Mathlib.Control.Monad.Writer

/-!
# Code that emits events

A function that also writes down, first to last, what it does to something that its
value does not speak of: a mutex, a bus, a device. It is written in the writer monad, so
that its early exits stand where they are and emit what has been done until then.

`Only` is for code that emits events of one kind and no others, whatever way it takes.
-/

namespace PicoHost

/-- A computation of an `α` that emits events of `ε`. -/
abbrev Emit (ε α : Type) := Writer (List ε) α

namespace Emit

variable {ε α β : Type}

/-- What the code returns. -/
def value (x : Emit ε α) : α := x.run.1

/-- What the code emits. -/
def events (x : Emit ε α) : List ε := x.run.2

/-- Emit one event. -/
def emit (e : ε) : Emit ε Unit := tell [e]

@[simp] theorem value_pure (a : α) : value (pure a : Emit ε α) = a := rfl

@[simp] theorem events_pure (a : α) : events (pure a : Emit ε α) = [] := rfl

@[simp] theorem value_bind (x : Emit ε α) (f : α → Emit ε β) :
    value (x >>= f) = (f x.value).value := rfl

@[simp] theorem events_bind (x : Emit ε α) (f : α → Emit ε β) :
    events (x >>= f) = x.events ++ (f x.value).events := rfl

@[simp] theorem value_emit (e : ε) : value (emit e) = () := rfl

@[simp] theorem events_emit (e : ε) : events (emit e) = [e] := rfl

/-! ## Events of one kind -/

/-- The code emits no events but `e`. -/
structure Only (e : ε) (x : Emit ε α) : Prop where
  eq_of_mem : ∀ e' ∈ x.events, e' = e

namespace Only

variable {e : ε} {x : Emit ε α}

/-- A computation without events only emits what is asked. -/
theorem pure (a : α) : Only e (Pure.pure a : Emit ε α) :=
  ⟨fun _ h => absurd h List.not_mem_nil⟩

/-- One event of the kind -/
theorem emit (e : ε) : Only e (Emit.emit e) := ⟨fun _ h => List.mem_singleton.mp h⟩

/-- Whatever the first part returns, the second goes on in the same way. -/
theorem bind {f : α → Emit ε β} (hx : Only e x) (hf : ∀ a, Only e (f a)) :
    Only e (x >>= f) := by
  constructor
  intro e' h
  rcases List.mem_append.mp h with h | h
  · exact hx.eq_of_mem e' h
  · exact (hf _).eq_of_mem e' h

/-- Such code emits the event a number of times. -/
theorem eq_replicate (h : Only e x) : x.events = List.replicate x.events.length e :=
  List.eq_replicate_of_mem h.eq_of_mem

end Only

end Emit

end PicoHost
