import DecoratorVeil.Grammar.Reading

/-!
# Repairs

A reading whose next token cannot come is repaired by setting aside its last symbols, together with
the tokens that follow up to one that goes on with the symbols before them.  What is set aside
becomes an error node, which is harmless if it holds decorators and, but for these, only keywords
and signs; this is how decorators in front of a statement that takes none are read.  A repair may
also take a token for left out, which is never harmless.  Every repair has a cost.
-/

namespace DecoratorVeil.Grammar
open DecoratorVeil.Syntax

/-! ## Costs -/

namespace RepairCost

def error : Nat := 500

/-- The cost of a thing in an error node. -/
def thing : Nat := 100

def line : Nat := 30

def missing : Nat := 610

end RepairCost

/-- A token that was passed over. -/
structure Passed where
  lexeme : Lexeme
  token : Token

structure Place where
  /-- The reading up to the place. -/
  reading : Reading
  /-- The symbols behind the place, the newest first. -/
  popped : List Frame
  /-- Whether decorators end here outside of a class body, so that any token may come that follows
  such decorators somewhere. -/
  endsDecorators : Bool

/-- A reading in search of a repair.  Its position is that of the next token to pass over. -/
structure Lost where
  reading : Reading
  /-- The places to go back to, the nearest first. -/
  places : List Place
  /-- The tokens passed over, the newest first. -/
  passed : List Passed

namespace Passed

def isComment (passed : Passed) : Bool := (Reader.commentKind? passed.token).isSome

end Passed

namespace Reader

def stretchCost (reader : Reader) (start stop : Nat) : Nat :=
  (reader.input.byteOffset stop - reader.input.byteOffset start) +
    RepairCost.line * reader.input.linesBetween start stop

/-! ## Errors -/

/-- The named nodes of a symbol in an error node, the newest first.  Only decorators are kept as
they are; any other thing leaves a node that has no meaning. -/
def namedNodes (reader : Reader) (frame : Frame) : List Node :=
  match frame.symbol with
  | .token number =>
    if (reader.automaton.vocabulary.token number).isNamed then [thing] else []
  | .part .decorators | .part .decorator => frame.nodes
  | .part _ => [thing]
where
  thing : Node := reader.nodeOver "thing" frame.start frame.stop []

def passedNodes (reader : Reader) (passed : Passed) : List Node :=
  let lexeme := passed.lexeme
  if passed.token.isNamed then
    [reader.nodeOver ((commentKind? passed.token).getD "thing") lexeme.start lexeme.stop []]
  else []

def errorCost (reader : Reader) (error : Extra) : Nat :=
  RepairCost.error + RepairCost.thing * error.things + reader.stretchCost error.start error.stop

/-- The error that sets aside symbols and tokens, each the newest first. -/
def errorOf? (reader : Reader) (popped : List Frame) (passed : List Passed) : Option Extra :=
  let starts := (popped.getLast?.map (·.start)).orElse fun _ =>
    passed.getLast?.map (·.lexeme.start)
  let stops := (passed.head?.map (·.lexeme.stop)).orElse fun _ => popped.head?.map (·.stop)
  match starts, stops with
  | some start, some stop =>
    let nodes := passed.flatMap reader.passedNodes ++ popped.flatMap fun frame =>
      frame.extras.map (·.node) ++ reader.namedNodes frame
    some
      { node := reader.nodeOver errorKind start stop nodes.reverse
        start := start
        stop := stop
        things := popped.foldl (· + ·.visible) 0 + (passed.filter (!·.isComment)).length }
  | _, _ => none

/-- One error in place of two that follow each other. -/
def joinErrors (reader : Reader) (first second : Extra) : Extra where
  node := reader.nodeOver errorKind first.start second.stop
    (first.node.children ++ second.node.children)
  start := first.start
  stop := second.stop
  things := first.things + second.things

/-! ## Places -/

/-- Finishes the decorators at the end of a reading as if another one followed. -/
def settle (reader : Reader) : Nat → Reading → Reading
  | 0, reading => reading
  | fuel + 1, reading =>
    let actions := reader.automaton.actions reading.top.state (reader.number (.fixed "@"))
    if actions.shift then reading
    else
      match actions.reductions.getLast?.bind (reader.reduce? reading) with
      | some next => reader.settle fuel next
      | none => reading

def decoratorEnds : List Part :=
  [.decorator, .decoratorMember, .decoratorCall, .decoratorParenthesized, .arguments]

/-- Whether decorators end at the end of a reading, outside of a class body. -/
def endsDecorators (reader : Reader) (reading : Reading) : Bool :=
  reading.top.state.valid.contains (reader.number (.fixed "@")) &&
    (reading.top.state.kernel.any fun item =>
      decoratorEnds.contains (reader.automaton.productionOf item).part) &&
    let settled := (reader.settle reader.stepBound reading).top
    settled.symbol == .part .decorators &&
      settled.state.valid ∪ reader.afterDecorators == reader.afterDecorators

def finishable (reader : Reader) (reading : Reading) : List Reduction :=
  reading.top.state.kernel.foldl
    (fun found item =>
      let production := reader.automaton.productionOf item
      if item.dot == production.steps.size && production.part != .program &&
          !found.any (fun other =>
            other.part == production.part && other.steps.size == production.steps.size)
      then found ++ [⟨production.part, production.steps, production.preference⟩]
      else found)
    []

def canGoOn (reader : Reader) (reading : Reading) : Bool :=
  reading.top.state.kernel.any fun item => (reader.automaton.awaited? item).isSome

/-- The readings that a reading becomes by finishing productions before whatever token.  One that
can only finish a production is left out. -/
def variants (reader : Reader) : Nat → Reading → List Reading
  | 0, reading => [reading]
  | fuel + 1, reading =>
    let finished := (reader.finishable reading).filterMap (reader.reduce? reading)
    (if reader.canGoOn reading || finished.isEmpty then [reading] else []) ++
      finished.flatMap (reader.variants fuel)

def reach : Nat := 15

def placeBack? (reader : Reader) (reading : Reading) (depth : Nat) : Option Place :=
  let frames := reading.top :: reading.below
  match frames.drop depth with
  | top :: below =>
    let back := { reading with top := top, below := below, pos := top.after }
    some ⟨back, frames.take depth, depth == 0 && reader.endsDecorators back⟩
  | [] => none

/-- The places to which a repair may go back, the nearest first. -/
def placesOf (reader : Reader) (readings : List Reading) : List Place :=
  (List.range (reach + 1)).flatMap fun depth =>
    readings.filterMap fun reading => reader.placeBack? reading depth

def accepts (reader : Reader) (place : Place) (lexeme : Lexeme) : Bool :=
  place.reading.top.state.valid.contains lexeme.token ||
    (place.endsDecorators && reader.afterDecorators.contains lexeme.token) ||
    reader.lexicon.extras.contains lexeme.token

/-! ## Going on after an error -/

/-- Puts an error behind the newest symbol of a reading.  Two errors that follow each other become
one. -/
def addError (reader : Reader) (reading : Reading) (error : Extra) : Reading :=
  match reading.top.extras with
  | last :: extras =>
    if last.isError then
      let joined := reader.joinErrors last error
      { reading with
        top := { reading.top with extras := joined :: extras }
        cost := reading.cost - reader.errorCost last + reader.errorCost joined }
    else fresh
  | [] => fresh
where
  fresh : Reading :=
    { reading with
      top := { reading.top with extras := error :: reading.top.extras }
      cost := reading.cost + reader.errorCost error }

/-- Goes back to a place and sets aside what lies behind it, except for comments at its end. -/
def resumeAt (reader : Reader) (lost : Lost) (place : Place) : Reading :=
  let passed := lost.passed.dropWhile (·.isComment)
  let comments := lost.passed.takeWhile (·.isComment) |>.map fun p =>
    reader.comment ((commentKind? p.token).getD "comment") p.lexeme
  let trailing := match passed, place.popped with
    | [], frame :: _ => comments ++ frame.extras
    | _, _ => comments
  let count := place.reading.count + lost.passed.length + 1
  let base :=
    { place.reading with
      pos := lost.reading.pos
      count := count
      countAtError := min count lost.reading.countAtError }
  let repaired := match reader.errorOf? place.popped passed with
    | some error => reader.addError base error
    | none => base
  { repaired with
    top :=
      { repaired.top with
        extras := trailing ++ repaired.top.extras
        after := lost.reading.pos } }

def passOver (reader : Reader) (lost : Lost) (lexeme : Lexeme) : Lost :=
  { lost with
    reading := { lost.reading with pos := lexeme.stop }
    passed := ⟨lexeme, reader.tokenOf lexeme⟩ :: lost.passed }

/-- Finishes productions before a token until the token can come next. -/
def makeWay? (reader : Reader) : Nat → Reading → Lexeme → Option Reading
  | 0, _, _ => none
  | fuel + 1, reading, lexeme =>
    let actions := reader.automaton.actions reading.top.state lexeme.token
    if actions.shift then some reading
    else
      match actions.reductions.getLast?.bind (reader.reduce? reading) with
      | some next => reader.makeWay? fuel next lexeme
      | none => none

/-- Takes a token for left out, if it finishes a production and what follows can come then. -/
def supply? (reader : Reader) (reading : Reading) (lexeme : Lexeme) (missing : Nat) :
    Option Reading :=
  match reader.shift? reading ⟨missing, reading.pos, reading.pos⟩ with
  | none => none
  | some supplied =>
    if (reader.automaton.actions supplied.top.state lexeme.token).reductions.isEmpty then none
    else
      (reader.makeWay? reader.stepBound supplied lexeme).map fun ready =>
        { ready with cost := ready.cost + RepairCost.missing, spoiled := true }

def supplyAny? (reader : Reader) (readings : List Reading) (lexeme : Lexeme) : Option Reading :=
  readings.findSome? fun reading =>
    (List.range reader.automaton.vocabulary.tokens.size).findSome? fun token =>
      if reading.top.state.valid.contains token then reader.supply? reading lexeme token else none

/-- The next token where no rule says what comes next. -/
def scanAnything? (reader : Reader) (pos : Nat) : Option Lexeme :=
  scan? reader.lexicon reader.input reader.lexicon.anything pos

def totalCost (reader : Reader) (lost : Lost) : Nat :=
  let frames := (lost.reading.top :: lost.reading.below).dropLast
  lost.reading.cost + ((reader.errorOf? frames lost.passed).map reader.errorCost).getD 0

/-- Starts the search for a repair of a reading and its peers.  A second reading may come from a
token left out. -/
def lose (reader : Reader) (reading : Reading) (peers : List Reading) (lexeme : Lexeme) :
    Lost × Option Reading :=
  let readings := (reading :: peers).flatMap (reader.variants 6)
  let reading := { reading with countAtError := (readings.map (·.count)).max?.getD 0 }
  (⟨reading, reader.placesOf readings, []⟩, reader.supplyAny? readings lexeme)

/-- Finds the next token and reads it.  Behind decorators, any token is looked for that may follow
decorators somewhere; one that may not come here finishes them all the same. -/
def advance (reader : Reader) (reading : Reading) : Progress :=
  let behind := reader.endsDecorators reading
  let valid := reading.top.state.valid
  let wider := if behind then valid ∪ reader.afterDecorators else valid
  match scan? reader.lexicon reader.input wider reading.pos with
  | none => ⟨.stuck reading ((reader.scanAnything? reading.pos).getD nothing), []⟩
  | some lexeme =>
    match commentKind? (reader.tokenOf lexeme) with
    | some kind => ⟨.moved (reader.passComment reading kind lexeme), []⟩
    | none =>
      if behind && !valid.contains lexeme.token then
        ⟨.stuck (reader.settle reader.stepBound reading) lexeme, []⟩
      else reader.feed reader.stepBound reading lexeme []
where
  nothing : Lexeme := ⟨reader.number .endOfText, reader.input.size, reader.input.size⟩

end Reader

end DecoratorVeil.Grammar
