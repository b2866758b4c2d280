import DecoratorVeil.Grammar.Repair

/-!
# Readings side by side

Readings of one text go on in rounds.  In a round every reading goes on until it is ahead of the
readings before it.  Then readings that go on alike are joined, and readings that cost too much are
given up.  A reading that is stuck is given up as long as another one goes on, and searched a repair
for otherwise.  The cheapest reading of the whole text counts.
-/

namespace DecoratorVeil.Grammar
open DecoratorVeil.Syntax

/-- A reading in a race. -/
inductive Runner where
  | going (reading : Reading)
  /-- Stuck before a token. -/
  | stuck (reading : Reading) (lexeme : Lexeme)
  | lost (lost : Lost)

structure Score where
  cost : Nat
  /-- The number of things read since the last error. -/
  progress : Nat
  preference : Int
  failing : Bool

/-- The answer of a comparison: which runner goes first, and whether the other is given up. -/
inductive Verdict where
  | onlyFirst | first | equal | second | onlySecond
  deriving DecidableEq, Repr

namespace Score

/-- How much cost, times the progress made, gives a runner up. -/
def margin : Nat := 1800

def compare (a b : Score) : Verdict :=
  if !a.failing && b.failing then if a.cost < b.cost then .onlyFirst else .first
  else if a.failing && !b.failing then if b.cost < a.cost then .onlySecond else .second
  else if a.cost < b.cost then
    if (b.cost - a.cost) * (1 + a.progress) > margin then .onlyFirst else .first
  else if b.cost < a.cost then
    if (a.cost - b.cost) * (1 + b.progress) > margin then .onlySecond else .second
  else if a.preference > b.preference then .first
  else if b.preference > a.preference then .second
  else .equal

end Score

namespace Runner

def reading : Runner → Reading
  | .going r => r
  | .stuck r _ => r
  | .lost l => l.reading

def isStuck : Runner → Bool
  | .stuck _ _ => true
  | _ => false

end Runner

namespace Reader

def lostCost (reader : Reader) (lost : Lost) : Nat :=
  match lost.passed.getLast?, lost.passed.head? with
  | some oldest, some newest =>
    lost.reading.cost + RepairCost.error +
      RepairCost.thing * (lost.passed.filter (!·.isComment)).length +
      reader.stretchCost oldest.lexeme.start newest.lexeme.stop
  | _, _ => lost.reading.cost + RepairCost.error

def lostProgress (lost : Lost) : Nat :=
  if lost.passed.isEmpty then 0 else lost.passed.length + 1

def scoreOf (reader : Reader) : Runner → Score
  | .going reading =>
    ⟨reading.cost, reading.count - reading.countAtError, reading.preference, false⟩
  | .stuck reading _ =>
    ⟨reading.cost + RepairCost.error + RepairCost.thing, reading.count - reading.countAtError,
      reading.preference, true⟩
  | .lost lost => ⟨reader.lostCost lost, lostProgress lost, lost.reading.preference, true⟩

/-- Whether a reading of the whole text replaces the one before it. -/
def finish (winner : Option Reading) (reading : Reading) : Option Reading :=
  match winner with
  | none => some reading
  | some other =>
    if reading.cost < other.cost then some reading
    else if other.cost < reading.cost then winner
    else if other.preference > reading.preference then winner
    else if reading.preference > other.preference || reading.cost > 0 then some reading
    else winner

/-- Whether a search for a repair at a given cost is hopeless against other runners. -/
def isBeaten (reader : Reader) (winner : Option Reading) (others : List Runner) (lost : Lost)
    (cost : Nat) : Bool :=
  winner.any (·.cost ≤ cost) ||
  others.any fun other =>
    !other.isStuck && lost.reading.pos ≤ other.reading.pos &&
      Score.compare ⟨cost, lostProgress lost, lost.reading.preference, false⟩
        (reader.scoreOf other) == .onlySecond

def findPlace? (reader : Reader) (winner : Option Reading) (others : List Runner) (lost : Lost)
    (lexeme : Lexeme) : List Place → Option Place
  | [] => none
  | place :: rest =>
    let pos := lost.reading.pos
    if place.reading.pos == pos || others.any (taken place) then
      reader.findPlace? winner others lost lexeme rest
    else
      let cost := reader.lostCost lost + RepairCost.thing * (place.popped.length + 1) +
        reader.stretchCost place.reading.pos pos
      if reader.isBeaten winner others lost cost then none
      else if reader.accepts place lexeme then some place
      else reader.findPlace? winner others lost lexeme rest
where
  /-- Whether another runner already stands where the repair would go on. -/
  taken (place : Place) : Runner → Bool
    | .going reading =>
      reading.pos == lost.reading.pos && reading.top.state.alike place.reading.top.state
    | _ => false

/-- What becomes of a search for a repair at a token: the search itself, if it goes on, a reading
that was repaired, and a reading of the whole text. -/
structure Search where
  search : Option Lost
  repaired : Option Reading
  final : Option Reading

/-- Tries to repair a reading before a token, and passes over the token. -/
def search (reader : Reader) (winner : Option Reading) (others : List Runner) (lost : Lost)
    (lexeme : Lexeme) : Search :=
  let repaired := (reader.findPlace? winner others lost lexeme lost.places).map
    (reader.resumeAt lost)
  if lexeme.token == reader.number .endOfText then
    ⟨none, repaired, some { lost.reading with
      cost := reader.totalCost lost
      spoiled := true }⟩
  else
    let cost := reader.lostCost lost + RepairCost.thing +
      reader.stretchCost lost.reading.pos lexeme.stop
    if reader.isBeaten winner others lost cost then ⟨none, repaired, none⟩
    else ⟨some (reader.passOver lost lexeme), repaired, none⟩

/-! ## Rounds -/

/-- What a runner becomes: itself if it is still in the race, and runners that branched off. -/
structure Move where
  runner : Option Runner
  forks : List Reading
  final : Option Reading

def move (reader : Reader) (winner : Option Reading) (others : List Runner) : Runner → Move
  | .going reading =>
    let progress := reader.advance reading
    match progress.outcome with
    | .moved next => ⟨some (.going next), progress.forks, none⟩
    | .accepted final => ⟨none, progress.forks, some final⟩
    | .stuck reading lexeme =>
      ⟨some (.stuck { reading with countAtError := reading.count } lexeme), progress.forks, none⟩
  | .stuck reading lexeme => ⟨some (.stuck reading lexeme), [], none⟩
  | .lost lost =>
    match reader.scanAnything? lost.reading.pos with
    | some lexeme =>
      let found := reader.search winner others lost lexeme
      ⟨found.search.map .lost, found.repaired.toList, found.final⟩
    | none => ⟨none, [], none⟩

/-- Adds a reading to a race unless another one goes on alike. -/
def join (reading : Reading) : List Runner → List Runner
  | [] => [.going reading]
  | .going other :: rest =>
    if other.agrees reading then .going (other.better reading) :: rest
    else .going other :: join reading rest
  | runner :: rest => runner :: join reading rest

/-- The state of a round. -/
structure Round where
  /-- The runners that had their turn, the newest first. -/
  done : List Runner
  /-- The runners that wait for their turn. -/
  waiting : List Runner
  /-- Whether no runner had its turn yet. -/
  opening : Bool
  /-- The furthest position that a runner has come to. -/
  furthest : Nat
  winner : Option Reading

/-- Lets the waiting runners have their turn, each until it is past the furthest position. -/
def turns (reader : Reader) : Nat → Round → Round
  | 0, round => round
  | fuel + 1, round =>
    match round.waiting with
    | [] => round
    | .stuck reading lexeme :: rest =>
      reader.turns fuel
        { round with
          done := .stuck reading lexeme :: round.done, waiting := rest, opening := false }
    | runner :: rest =>
      let moved := reader.move round.winner (round.done.reverse ++ rest) runner
      let round :=
        { round with
          waiting := moved.forks.foldl (fun found fork => join fork found) rest
          winner := match moved.final with
            | some final => finish round.winner final
            | none => round.winner }
      match moved.runner with
      | none => reader.turns fuel { round with opening := false }
      | some next =>
        let pos := next.reading.pos
        if round.furthest < pos || (!round.opening && pos == round.furthest) then
          reader.turns fuel
            { round with done := next :: round.done, opening := false, furthest := pos }
        else reader.turns fuel { round with waiting := next :: round.waiting }

/-- Puts a runner among those that are kept, the better ones first.  A runner that gives way moves on
in its place, and the rest is still compared with the first one's score. -/
def place (reader : Reader) (score : Score) (runner : Runner) : List Runner → List Runner
  | [] => [runner]
  | other :: rest =>
    match Score.compare (reader.scoreOf other) score with
    | .onlyFirst => other :: rest
    | .onlySecond => reader.place score runner rest
    | .second =>
      match joined? other runner with
      | some one => one :: rest
      | none => runner :: reader.place score other rest
    | _ =>
      match joined? other runner with
      | some one => one :: rest
      | none => other :: reader.place score runner rest
where
  joined? : Runner → Runner → Option Runner
    | .going a, .going b => if a.agrees b then some (.going (a.better b)) else none
    | _, _ => none

def maxRunners : Nat := 24

def leastCost (runners : List Runner) : Option Nat :=
  (runners.filterMap fun
    | .going reading => some reading.cost
    | _ => none).min?

/-- The runners of the next round, the winner so far, and the least cost that a runner may end
with. -/
structure Relief where
  runners : List Runner
  winner : Option Reading
  least : Option Nat

/-- Gives stuck runners up, except that the first one is searched a repair for if no runner stands
before it. -/
def relieve (reader : Reader) (winner : Option Reading) (runners : List Runner) : Relief :=
  match runners with
  | .stuck reading lexeme :: rest =>
    let kept := rest.filter (!·.isStuck)
    let (lost, supplied) := reader.lose reading (rest.filterMap (peer? reading)) lexeme
    let others := kept ++ (supplied.map Runner.going).toList
    let found := reader.search winner others lost lexeme
    { runners := (found.search.map Runner.lost).toList ++ others ++
        (found.repaired.map Runner.going).toList
      winner := match found.final with
        | some final => finish winner final
        | none => winner
      least := some (reading.cost + RepairCost.error) }
  | _ => ⟨runners.filter (!·.isStuck), winner, leastCost runners⟩
where
  /-- A reading that is stuck at the same place and cost. -/
  peer? (reading : Reading) : Runner → Option Reading
    | .stuck other _ =>
      if other.pos == reading.pos && other.cost == reading.cost &&
          other.top.state.alike reading.top.state then some other else none
    | _ => none

/-- Runs a race.  Gives the best reading of the whole text. -/
def race (reader : Reader) : Nat → Nat → List Runner → Option Reading → Option Reading
  | 0, _, _, winner => winner
  | fuel + 1, furthest, runners, winner =>
    let round := reader.turns (reader.stepBound * 8) ⟨[], runners, true, furthest, winner⟩
    let sorted := (round.done.reverse ++ round.waiting).foldl
      (fun kept runner => reader.place (reader.scoreOf runner) runner kept) []
    let relief := reader.relieve round.winner (sorted.take maxRunners)
    if relief.runners.isEmpty then relief.winner
    else if relief.winner.any fun reading => relief.least.all (reading.cost < ·) then relief.winner
    else reader.race fuel round.furthest relief.runners relief.winner

end Reader

end DecoratorVeil.Grammar
