import DecoratorVeil.Grammar.Race

/-!
# Reading a source text

A text that cannot be read becomes a single error node, which no later step recovers from.
-/

namespace DecoratorVeil.Grammar
open DecoratorVeil.Syntax

/-- The tokens that may follow decorators somewhere outside of class bodies. -/
def decoratorFollow : TokenSet :=
  Automaton.source.followInside .decorators fun part =>
    part != .classMembers && part != .fieldDefinition

def Reader.ofString (text : String) : Reader := ⟨.source, .source, decoratorFollow, .ofString text⟩

def readSource (text : String) : Node :=
  let reader := Reader.ofString text
  match reader.race reader.stepBound 0 [.going reader.begin] none with
  | some reading =>
    if reading.spoiled then Node.branch errorKind 0 text.utf8ByteSize [] else reader.root reading
  | none => Node.branch errorKind 0 text.utf8ByteSize []

end DecoratorVeil.Grammar
