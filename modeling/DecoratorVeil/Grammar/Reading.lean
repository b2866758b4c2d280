import DecoratorVeil.Grammar.Automaton
import DecoratorVeil.Grammar.Scanner
import DecoratorVeil.Syntax.Recovery

/-!
# Readings

A reading is one way to read a text up to a position: the symbols found so far, each with its state
and the syntax nodes it leaves.  Where the grammar allows several ways, several readings go on side
by side.  Comments, and what was set aside as an error, stand behind the symbol before them and go
into the part around them.
-/

namespace DecoratorVeil.Grammar
open DecoratorVeil.Syntax

/-- A comment or an error between two symbols. -/
structure Extra where
  node : Node
  start : Nat
  stop : Nat
  /-- The number of things that an error holds. -/
  things : Nat

def Extra.isError (extra : Extra) : Bool := extra.node.kind == errorKind

/-- A symbol of a reading.  Nodes are kept with the newest first. -/
structure Frame where
  symbol : Symbol
  state : State
  nodes : List Node
  /-- Comments and errors that follow the symbol, the newest first. -/
  extras : List Extra
  start : Nat
  stop : Nat
  /-- The position behind the symbol and what follows it. -/
  after : Nat
  /-- The number of things that the symbol counts for. -/
  visible : Nat
  /-- Whether an error stands in the symbol. -/
  flawed : Bool

structure Reading where
  /-- The newest symbol. -/
  top : Frame
  /-- The symbols before it, the newest first. -/
  below : List Frame
  pos : Nat
  /-- The sum of the preferences of the productions that were reduced. -/
  preference : Int
  /-- What the repairs of the text have cost. -/
  cost : Nat
  /-- Whether a repair has left an error that makes the tree unusable. -/
  spoiled : Bool
  /-- The number of things read so far. -/
  count : Nat
  /-- The same number at the last error. -/
  countAtError : Nat

structure Reader where
  automaton : Automaton
  lexicon : Lexicon
  /-- The tokens that may follow decorators somewhere outside of class bodies. -/
  afterDecorators : TokenSet
  input : Input

namespace Reader

def number (reader : Reader) (token : Token) : Nat := reader.automaton.vocabulary.number token

def tokenOf (reader : Reader) (lexeme : Lexeme) : Token :=
  reader.automaton.vocabulary.token lexeme.token

/-- The reading of nothing.  Its only frame stands for the place before the text. -/
def begin (reader : Reader) : Reading where
  top :=
    { symbol := .part .program
      state := reader.automaton.start
      nodes := []
      extras := []
      start := 0
      stop := 0
      after := 0
      visible := 0
      flawed := false }
  below := []
  pos := 0
  preference := 0
  cost := 0
  spoiled := false
  count := 0
  countAtError := 0

def nodeOver (reader : Reader) (kind : String) (start stop : Nat) (children : List Node) : Node :=
  Node.branch kind (reader.input.byteOffset start) (reader.input.byteOffset stop) children

def shift? (reader : Reader) (reading : Reading) (lexeme : Lexeme) : Option Reading :=
  (reader.automaton.next? reading.top.state (.token lexeme.token)).map fun state =>
    let visible := if (reader.tokenOf lexeme).isVisible then 1 else 0
    { reading with
      top :=
        { symbol := .token lexeme.token
          state := state
          nodes := []
          extras := []
          start := lexeme.start
          stop := lexeme.stop
          after := lexeme.stop
          visible := visible
          flawed := false }
      below := reading.top :: reading.below
      pos := lexeme.stop
      count := reading.count + visible }

def commentKind? : Token → Option String
  | .comment => some "comment"
  | .pageComment => some "html_comment"
  | _ => none

def comment (reader : Reader) (kind : String) (lexeme : Lexeme) : Extra where
  node := reader.nodeOver kind lexeme.start lexeme.stop []
  start := lexeme.start
  stop := lexeme.stop
  things := 0

def passComment (reader : Reader) (reading : Reading) (kind : String) (lexeme : Lexeme) : Reading :=
  { reading with
    top :=
      { reading.top with
        extras := reader.comment kind lexeme :: reading.top.extras
        after := lexeme.stop }
    pos := lexeme.stop
    count := reading.count + 1 }

/-! ## Reductions -/

/-- The nodes of a frame in the field of its step.  A field of a symbol that leaves no node holds
the text of the symbol. -/
def fieldNodes (reader : Reader) (frame : Frame) : Option String → List Node
  | none => frame.nodes
  | some name =>
    match frame.nodes with
    | [] => [(reader.nodeOver "identifier" frame.start frame.stop []).withField name]
    | nodes => nodes.map (·.withField name)

/-- The nodes of the frames of a production, the newest first, with the extras between them.  The
fields are those of the frames, the newest first. -/
def gather (reader : Reader) : List Frame → List (Option String) → List Node
  | frame :: older, field :: fields =>
    reader.fieldNodes frame field ++
      match older with
      | [] => []
      | next :: _ => next.extras.map (·.node) ++ reader.gather older fields
  | _, _ => []

/-- Whether a node is an error that makes a part of the given shape unusable.  An error that a part
hands on is judged by the part around it. -/
def isHarmful (shape : Shape) (node : Node) : Bool :=
  match shape with
  | .node kind =>
    node.kind == errorKind && (!memberListKinds.contains kind || node.strayDecorators?.isNone)
  | .through => false
  | .covered | .silent => node.kind == errorKind

def shaped (reader : Reader) (shape : Shape) (start stop : Nat) (flawed : Bool)
    (nodes : List Node) : List Node :=
  match shape with
  | .node kind => [{ reader.nodeOver kind start stop nodes.reverse with hasError := flawed }]
  | .through => nodes
  | .covered | .silent => []

/-- Whether a part of a shape counts as a thing of its own. -/
def counts : Shape → Bool
  | .node _ | .covered => true
  | .through | .silent => false

def flawedIn : List Frame → Bool
  | [] => false
  | frame :: older => frame.flawed || older.any fun f => f.flawed || f.extras.any (·.isError)

def visibleIn : List Frame → Nat
  | [] => 0
  | [frame] => frame.visible
  | frame :: next :: older => frame.visible + next.extras.length + visibleIn (next :: older)

def reduce? (reader : Reader) (reading : Reading) (reduction : Reduction) : Option Reading :=
  let size := reduction.steps.size
  let frames := reading.top :: reading.below
  let popped := frames.take size
  match frames.drop size, popped.getLast? with
  | base :: below, some oldest =>
    (reader.automaton.next? base.state (.part reduction.part)).map fun state =>
      let nodes := reader.gather popped (reduction.steps.toList.reverse.map (·.field))
      let shape := reduction.part.shape
      let flawed := flawedIn popped
      { reading with
        top :=
          { symbol := .part reduction.part
            state := state
            nodes := reader.shaped shape oldest.start reading.top.stop flawed nodes
            extras := reading.top.extras
            start := oldest.start
            stop := reading.top.stop
            after := reading.top.after
            visible := if counts shape then 1 else visibleIn popped
            flawed := flawed }
        below := base :: below
        preference := reading.preference + reduction.preference
        spoiled := reading.spoiled || nodes.any (isHarmful shape)
        count := reading.count + if counts shape then 1 else 0 }
  | _, _ => none

def root (reader : Reader) (reading : Reading) : Node :=
  let nodes := (reading.top :: reading.below).flatMap fun frame =>
    frame.extras.map (·.node) ++ frame.nodes
  Node.branch "program" 0 (reader.input.byteOffset reader.input.size) nodes.reverse

/-! ## Reading a token -/

/-- Where a reading has come with a token. -/
inductive Outcome where
  | moved (reading : Reading)
  /-- The whole text is read. -/
  | accepted (reading : Reading)
  /-- The token cannot come next. -/
  | stuck (reading : Reading) (lexeme : Lexeme)

/-- The outcome for a token, and the readings that branched off before it was read. -/
structure Progress where
  outcome : Outcome
  forks : List Reading

/-- The same token as a word, if it is a keyword that may not come next where a word may. -/
def asWord? (reader : Reader) (reading : Reading) (lexeme : Lexeme) : Option Lexeme :=
  let word := reader.number .name
  if reader.lexicon.keywords.contains lexeme.token && reading.top.state.valid.contains word then
    some { lexeme with token := word }
  else none

/-- Reads a token: reduces finished productions until it can be shifted.  Where several actions are
possible, the readings that finish a production branch off before the token, except that the last
one keeps the token if it cannot be shifted. -/
def feed (reader : Reader) : Nat → Reading → Lexeme → List Reading → Progress
  | 0, reading, lexeme, forks => ⟨.stuck reading lexeme, forks⟩
  | fuel + 1, reading, lexeme, forks =>
    let actions := reader.automaton.actions reading.top.state lexeme.token
    if actions.reductions.any (·.part == .program) then ⟨.accepted reading, forks⟩
    else if actions.shift then
      match reader.shift? reading lexeme with
      | some next => ⟨.moved next, forks ++ actions.reductions.filterMap (reader.reduce? reading)⟩
      | none => ⟨.stuck reading lexeme, forks⟩
    else
      match actions.reductions.getLast?.bind (reader.reduce? reading) with
      | some next =>
        reader.feed fuel next lexeme
          (forks ++ actions.reductions.dropLast.filterMap (reader.reduce? reading))
      | none =>
        match reader.asWord? reading lexeme with
        | some word => reader.feed fuel reading word forks
        | none => ⟨.stuck reading lexeme, forks⟩

/-- A number of steps that suffices for what is done at one place. -/
def stepBound (reader : Reader) : Nat := 256 * (reader.input.size + 16)

end Reader

namespace Reading

/-- Whether two readings have come to one place by the same symbols, so that they go on alike. -/
def agrees (a b : Reading) : Bool :=
  a.pos == b.pos && a.cost == b.cost && a.top.symbol == b.top.symbol &&
    a.below.map (·.symbol) == b.below.map (·.symbol)

/-- Of two readings that go on alike, the one with more preference. -/
def better (a b : Reading) : Reading := if b.preference > a.preference then b else a

end Reading

end DecoratorVeil.Grammar
