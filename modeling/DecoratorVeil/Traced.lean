import DecoratorVeil.Failure

/-!
# Traced computations

A computation that leaves a trace of what it said and did, and ends with a value or a failure.
The trace of a failed computation is kept.
-/

namespace DecoratorVeil

inductive Event where
  /-- A line for the log. -/
  | log (message : String)
  /-- A text and file name given to a source reader. -/
  | reading (code fileName : String)
  /-- A text, path and configuration given to a formatter. -/
  | formatting (code path : String) (config : Option String)
  /-- A program started with its arguments and input. -/
  | launch (arguments : List String) (input : String)
  deriving DecidableEq, Repr

structure Traced (α : Type) where
  trace : List Event
  outcome : Except Failure α

namespace Traced

variable {α β : Type}

def fail (failure : Failure) : Traced α := ⟨[], .error failure⟩

def ofExcept (outcome : Except Failure α) : Traced α := ⟨[], outcome⟩

def emit (event : Event) : Traced Unit := ⟨[event], .ok ()⟩

def log (message : String) : Traced Unit := emit (.log message)

def after (events : List Event) (t : Traced α) : Traced α :=
  ⟨events ++ t.trace, t.outcome⟩

instance : Monad Traced where
  pure a := ⟨[], .ok a⟩
  bind t f :=
    match t.outcome with
    | .ok a => (f a).after t.trace
    | .error failure => ⟨t.trace, .error failure⟩

/-- Goes on after a failure that the handler takes. -/
def recover (t : Traced α) (handler : Failure → Option (Traced α)) : Traced α :=
  match t.outcome with
  | .ok _ => t
  | .error failure =>
    match handler failure with
    | some next => next.after t.trace
    | none => t

@[simp] theorem outcome_pure (a : α) : (pure a : Traced α).outcome = .ok a := rfl

@[simp] theorem trace_pure (a : α) : (pure a : Traced α).trace = [] := rfl

theorem bind_of_ok {t : Traced α} {a : α} (f : α → Traced β) (h : t.outcome = .ok a) :
    t >>= f = (f a).after t.trace := by
  simp only [bind, h]

theorem bind_of_error {t : Traced α} {failure : Failure} (f : α → Traced β)
    (h : t.outcome = .error failure) : t >>= f = ⟨t.trace, .error failure⟩ := by
  simp only [bind, h]

end Traced

end DecoratorVeil
