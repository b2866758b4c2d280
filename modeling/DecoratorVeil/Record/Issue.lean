import DecoratorVeil.Record.Data

/-!
# Issues

What is wrong with loose data, and where.  Reading goes on after an issue, so that all of them are
found, in the order of the fields.
-/

namespace DecoratorVeil.Record

inductive IssueKind where
  | missing
  | modelType
  | listType
  | stringType
  | intType
  | intParsing
  | intFromFloat
  | enum
  deriving DecidableEq, Repr

def IssueKind.name : IssueKind → String
  | .missing => "missing"
  | .modelType => "model_type"
  | .listType => "list_type"
  | .stringType => "string_type"
  | .intType => "int_type"
  | .intParsing => "int_parsing"
  | .intFromFloat => "int_from_float"
  | .enum => "enum"

structure Issue where
  kind : IssueKind
  place : List Step
  deriving DecidableEq, Repr

abbrev Checked (α : Type) := Except (List Issue) α

namespace Checked

variable {α β γ : Type}

def issue (kind : IssueKind) : Checked α := .error [⟨kind, []⟩]

/-- Moves the issues one step outwards. -/
def inside (step : Step) : Checked α → Checked α
  | .ok a => .ok a
  | .error issues => .error (issues.map fun issue => { issue with place := step :: issue.place })

/-- Both values, or the issues of both. -/
def both (a : Checked α) (b : Checked β) : Checked (α × β) :=
  match a, b with
  | .ok a, .ok b => .ok (a, b)
  | .ok _, .error issues => .error issues
  | .error issues, .ok _ => .error issues
  | .error first, .error second => .error (first ++ second)

def sequence (position : Nat) : List (Checked α) → Checked (List α)
  | [] => .ok []
  | item :: rest =>
    (both (item.inside (.index position)) (sequence (position + 1) rest)).map fun (a, more) =>
      a :: more

end Checked

end DecoratorVeil.Record
