import DecoratorVeil.Text.Replace
import DecoratorVeil.Traced

/-!
# Formatters

A formatter turns a text that belongs to a path into a formatted one or fails.  Scripted formatters
follow a fixed edit and record every text they are given.
-/

namespace DecoratorVeil

abbrev Formatter := String → String → Option String → Traced String

inductive Edit where
  | identity
  /-- Replaces texts, pair after pair. -/
  | replace (pairs : List (String × String))
  | append (text : String)
  | prepend (text : String)
  | constant (text : String)
  /-- Fails on texts that contain the given one. -/
  | refuse (failure : ToolFailure) (trigger : String)

namespace Edit

def apply : Edit → String → Except Failure String
  | .identity, code => .ok code
  | .replace pairs, code =>
    .ok (String.ofList (pairs.foldl
      (fun text pair => Text.replaceAll pair.1.toList pair.2.toList text) code.toList))
  | .append text, code => .ok (code ++ text)
  | .prepend text, code => .ok (text ++ code)
  | .constant text, _ => .ok text
  | .refuse failure trigger, code =>
    if Text.occursIn trigger.toList code.toList then .error (.tool failure) else .ok code

end Edit

def Formatter.scripted (edit : Edit) : Formatter :=
  fun code path config => do
    Traced.emit (.formatting code path config)
    Traced.ofExcept (edit.apply code)

end DecoratorVeil
