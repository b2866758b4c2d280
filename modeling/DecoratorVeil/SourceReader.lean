import DecoratorVeil.Declaration.OfSyntax
import DecoratorVeil.Grammar.Source
import DecoratorVeil.Traced

/-!
# Source readers

A source reader turns a text into its declarations or refuses it.  The reader of the language goes
through a syntax tree; two more readers give a fixed answer and record what they were asked.
-/

namespace DecoratorVeil

abbrev SourceReader := String → String → Traced Declaration

namespace SourceReader

def declarations (root : Syntax.Node) (code fileName : String) : Traced Declaration :=
  if root.readable then
    match Declaration.ofRoot (.ofString code) root with
    | .ok source => pure source
    | .error (.unknownNode kind start) => do
      Traced.log
        ("No traversal rule for tree-sitter node " ++ kind ++ " at byte " ++ toString start)
      Traced.fail (.shape kind)
    | .error .undecodable => Traced.fail .undecodable
  else Traced.fail (.dialect (fileName ++ ": syntax errors in typescript source"))

/-- Reads by way of a syntax tree. -/
def ofSyntax (tree : String → Syntax.Node) : SourceReader :=
  fun code fileName => declarations (tree code) code fileName

def standard : SourceReader := ofSyntax Grammar.readSource

/-- Gives the same declarations for every text. -/
def constant (source : Declaration) : SourceReader :=
  fun code fileName => do
    Traced.emit (.reading code fileName)
    return source

def refusing (failure : ToolFailure) : SourceReader :=
  fun code fileName => do
    Traced.emit (.reading code fileName)
    Traced.fail (.tool failure)

end SourceReader

end DecoratorVeil
