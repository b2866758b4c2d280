import DecoratorVeil.Traced
import Mathlib.Tactic.Common

/-!
# Outcomes of traced computations

How a computation put together from others ends depends only on how these end.
-/

namespace DecoratorVeil.Traced

variable {α β : Type}

@[simp] theorem outcome_after (events : List Event) (t : Traced α) :
    (t.after events).outcome = t.outcome := rfl

@[simp] theorem outcome_bind (t : Traced α) (f : α → Traced β) :
    (t >>= f).outcome = t.outcome >>= fun a => (f a).outcome := by
  cases h : t.outcome with
  | ok a => rw [bind_of_ok f h]; rfl
  | error failure => rw [bind_of_error f h]; rfl

@[simp] theorem outcome_map (t : Traced α) (f : α → β) :
    (f <$> t).outcome = f <$> t.outcome := by
  change (t >>= fun a => pure (f a)).outcome = _
  rw [outcome_bind]
  cases t.outcome <;> rfl

theorem map_eq (t : Traced α) (f : α → β) : f <$> t = ⟨t.trace, f <$> t.outcome⟩ := by
  change (t >>= fun a => pure (f a)) = _
  cases h : t.outcome with
  | ok a =>
    rw [bind_of_ok _ h, after, trace_pure, List.append_nil]
    rfl
  | error failure =>
    rw [bind_of_error _ h]
    rfl

theorem bind_assoc {γ : Type} (t : Traced α) (f : α → Traced β) (g : β → Traced γ) :
    (t >>= f) >>= g = t >>= fun a => f a >>= g := by
  cases ht : t.outcome with
  | error failure =>
    rw [bind_of_error f ht, bind_of_error _ ht]
    rfl
  | ok a =>
    rw [bind_of_ok f ht, bind_of_ok _ ht]
    cases hf : (f a).outcome with
    | error failure =>
      rw [bind_of_error g hf]
      exact bind_of_error g hf
    | ok b =>
      rw [bind_of_ok g hf, bind_of_ok g ((outcome_after _ _).trans hf)]
      simp only [after, List.append_assoc]

theorem pure_bind (a : α) (f : α → Traced β) : pure a >>= f = f a := rfl

theorem ofExcept_ok_bind (a : α) (f : α → Traced β) : ofExcept (.ok a) >>= f = f a := rfl

theorem recover_of_ok {t : Traced α} {a : α} (handler : Failure → Option (Traced α))
    (h : t.outcome = .ok a) : t.recover handler = t := by
  rw [recover, h]

theorem recover_of_handled {t next : Traced α} {handler : Failure → Option (Traced α)}
    {failure : Failure} (h : t.outcome = .error failure) (hh : handler failure = some next) :
    t.recover handler = next.after t.trace := by
  rw [recover, h]
  simp only [hh]

theorem recover_of_unhandled {t : Traced α} {handler : Failure → Option (Traced α)}
    {failure : Failure} (h : t.outcome = .error failure) (hh : handler failure = none) :
    t.recover handler = t := by
  rw [recover, h]
  simp only [hh]

@[simp] theorem outcome_ofExcept (outcome : Except Failure α) :
    (ofExcept outcome).outcome = outcome := rfl

end DecoratorVeil.Traced
