import DecoratorVeil.Grammar.Precedence
import DecoratorVeil.Grammar.Production

/-!
# The states of a reading

A text is read from left to right by shifting tokens and by reducing the symbols of a finished
production to its part.  A state holds every production that may be under way at a place, how far
each has come, and which tokens may follow it.  States are computed when they are reached.  Where a
state allows both to go on and to finish, or to finish in several ways, precedence leaves one or
several actions.
-/

namespace DecoratorVeil.Grammar

/-- A part that may start where another one starts, with what may follow it there. -/
structure Corner where
  part : Part
  /-- Tokens that may follow because the production around it goes on. -/
  follow : TokenSet
  /-- Whether it may end where the other part ends. -/
  reachesEnd : Bool
  deriving Inhabited

structure Automaton where
  vocabulary : Vocabulary
  productions : Array Production
  /-- The tokens that a part may start with, by the number of the part. -/
  first : Array TokenSet
  /-- The parts that may start where a part starts, by its number. -/
  corners : Array (List Corner)
  /-- The productions that start with a token, by its number. -/
  byToken : Array (List Nat)
  /-- The productions that start with a part, by its number. -/
  byPart : Array (List Nat)

instance : Inhabited Automaton := ⟨⟨.empty, #[], #[], #[], #[], #[]⟩⟩

/-! ## Tables -/

def Symbol.first (first : Array TokenSet) : Symbol → TokenSet
  | .token number => .single number
  | .part p => first.getD p.index ∅

namespace Automaton

def widenFirst (productions : List Production) (first : Array TokenSet) : Array TokenSet :=
  productions.foldl
    (fun first production =>
      match production.symbol? 0 with
      | some symbol => first.modify production.part.index (· ∪ symbol.first first)
      | none => first)
    first

def firstTokens (productions : List Production) : Nat → Array TokenSet → Array TokenSet
  | 0, first => first
  | rounds + 1, first =>
    let wider := widenFirst productions first
    if wider == first then first else firstTokens productions rounds wider

def addCorner (corners : List Corner) (corner : Corner) : List Corner :=
  match corners with
  | [] => [corner]
  | other :: rest =>
    if other.part == corner.part then
      ⟨other.part, other.follow ∪ corner.follow, other.reachesEnd || corner.reachesEnd⟩ :: rest
    else other :: addCorner rest corner

def directCorners (productions : List Production) (first : Array TokenSet) : Array (List Corner) :=
  productions.foldl
    (fun corners production =>
      match production.symbol? 0, production.symbol? 1 with
      | some (.part part), none =>
        corners.modify production.part.index (addCorner · ⟨part, ∅, true⟩)
      | some (.part part), some next =>
        corners.modify production.part.index (addCorner · ⟨part, next.first first, false⟩)
      | _, _ => corners)
    (Array.replicate Part.all.length [])

/-- What may follow each part at a place, by the number of the part, and whether the part may end
where the first one ends. -/
abbrev Reach := Array (TokenSet × Bool)

/-- Hands on what may follow a part to the parts that stand first in it. -/
def handOn (direct : Array (List Corner)) (reach : Reach) (part : Part) : Reach :=
  let (follow, reachesEnd) := reach.getD part.index (∅, false)
  if follow.isEmpty && !reachesEnd then reach
  else
    (direct.getD part.index []).foldl
      (fun reach corner =>
        reach.modify corner.part.index fun (found, ends) =>
          if corner.reachesEnd then (found ∪ corner.follow ∪ follow, ends || reachesEnd)
          else (found ∪ corner.follow, ends))
      reach

def reachFrom (direct : Array (List Corner)) : Nat → Reach → Reach
  | 0, reach => reach
  | rounds + 1, reach =>
    let wider := Part.all.foldl (handOn direct) reach
    if wider == reach then reach else reachFrom direct rounds wider

def allCorners (direct : Array (List Corner)) (part : Part) : List Corner :=
  let reach := reachFrom direct Part.all.length
    ((Array.replicate Part.all.length (∅, false)).set! part.index (∅, true))
  Part.all.filterMap fun other =>
    let (follow, reachesEnd) := reach.getD other.index (∅, false)
    if follow.isEmpty && !reachesEnd then none else some ⟨other, follow, reachesEnd⟩

/-- The numbers of the productions, sorted by what their first symbol selects. -/
def sortByHead (productions : Array Production) (size : Nat) (select : Symbol → Option Nat) :
    Array (List Nat) :=
  (List.range productions.size).foldr
    (fun number sorted =>
      match ((productions.getD number default).symbol? 0).bind select with
      | some place => sorted.modify place (number :: ·)
      | none => sorted)
    (Array.replicate size [])

def ofGrammar (vocabulary : Vocabulary) (productions : List Production) : Automaton :=
  let parts := Part.all.length
  let first := firstTokens productions parts (Array.replicate parts ∅)
  let direct := directCorners productions first
  let numbered := productions.toArray
  { vocabulary := vocabulary
    productions := numbered
    first := first
    corners := (Part.all.map (allCorners direct)).toArray
    byToken := sortByHead numbered vocabulary.tokens.size fun
      | .token number => some number
      | .part _ => none
    byPart := sortByHead numbered parts fun
      | .token _ => none
      | .part part => some part.index }

def followInside (automaton : Automaton) (part : Part) (around : Part → Bool) : TokenSet :=
  automaton.productions.foldl
    (fun found production =>
      (List.range production.steps.size).foldl
        (fun found place =>
          if around production.part && production.symbol? place == some (.part part) then
            match production.symbol? (place + 1) with
            | some symbol => found ∪ symbol.first automaton.first
            | none => found
          else found)
        found)
    ∅

def source : Automaton :=
  let vocabulary := Vocabulary.standard
  ofGrammar vocabulary (Production.all vocabulary)

end Automaton

/-! ## States -/

/-- A production under way: how many of its symbols are read and what may follow it. -/
structure Item where
  production : Nat
  dot : Nat
  ahead : TokenSet

/-- A place in a text as far as the grammar is concerned. -/
structure State where
  kernel : List Item
  /-- What may follow each part that may start here, by the number of the part.  The set of a part
  that may not start here is empty. -/
  starts : Array TokenSet
  /-- The tokens that may come next. -/
  valid : TokenSet
  deriving Inhabited

def State.alike (a b : State) : Bool :=
  a.kernel.map (fun item => (item.production, item.dot)) ==
    b.kernel.map (fun item => (item.production, item.dot))

structure Reduction where
  part : Part
  steps : Array Step
  preference : Int

/-- What a state does with a token: the productions that it finishes, and whether it goes on. -/
structure Actions where
  reductions : List Reduction
  shift : Bool

namespace Automaton

def productionOf (automaton : Automaton) (item : Item) : Production :=
  automaton.productions.getD item.production default

def awaited? (automaton : Automaton) (item : Item) : Option Symbol :=
  (automaton.productionOf item).symbol? item.dot

def followOf (automaton : Automaton) (item : Item) : TokenSet :=
  match (automaton.productionOf item).symbol? (item.dot + 1) with
  | some symbol => symbol.first automaton.first
  | none => item.ahead

def awaitedParts (automaton : Automaton) (kernel : List Item) : List (Part × TokenSet) :=
  kernel.foldl
    (fun found item =>
      match automaton.awaited? item with
      | some (.part part) => add part (automaton.followOf item) found
      | _ => found)
    []
where
  add (part : Part) (follow : TokenSet) : List (Part × TokenSet) → List (Part × TokenSet)
    | [] => [(part, follow)]
    | (other, found) :: rest =>
      if other == part then (other, found ∪ follow) :: rest else (other, found) :: add part follow rest

def startsOf (automaton : Automaton) (kernel : List Item) : Array TokenSet :=
  match automaton.awaitedParts kernel with
  | [] => #[]
  | awaited =>
    awaited.foldl
      (fun starts (part, follow) =>
        (automaton.corners.getD part.index []).foldl
          (fun starts corner =>
            starts.modify corner.part.index fun found =>
              if corner.reachesEnd then found ∪ corner.follow ∪ follow else found ∪ corner.follow)
          starts)
      (Array.replicate automaton.first.size ∅)

def validOf (automaton : Automaton) (kernel : List Item) : TokenSet :=
  kernel.foldl
    (fun valid item =>
      match automaton.awaited? item with
      | some symbol => valid ∪ symbol.first automaton.first
      | none => valid ∪ item.ahead)
    ∅

def stateOf (automaton : Automaton) (kernel : List Item) : State where
  kernel := kernel
  starts := automaton.startsOf kernel
  valid := automaton.validOf kernel

def start (automaton : Automaton) : State :=
  automaton.stateOf <|
    (List.range automaton.productions.size).filterMap fun number =>
      if (automaton.productions.getD number default).part == .program then
        some ⟨number, 0, .single (automaton.vocabulary.number .endOfText)⟩
      else none

def startingWith (automaton : Automaton) : Symbol → List Nat
  | .token number => automaton.byToken.getD number []
  | .part part => automaton.byPart.getD part.index []

def itemsAfter (automaton : Automaton) (state : State) (symbol : Symbol) : List Item :=
  (state.kernel.filterMap fun item =>
    if automaton.awaited? item == some symbol then some { item with dot := item.dot + 1 }
    else none) ++
  (automaton.startingWith symbol).filterMap fun number =>
    let ahead := state.starts.getD (automaton.productions.getD number default).part.index ∅
    if ahead.isEmpty then none else some ⟨number, 1, ahead⟩

def next? (automaton : Automaton) (state : State) (symbol : Symbol) : Option State :=
  match automaton.itemsAfter state symbol with
  | [] => none
  | kernel => some (automaton.stateOf kernel)

def canShift (automaton : Automaton) (state : State) (token : Nat) : Bool :=
  state.kernel.any (fun item => automaton.awaited? item == some (.token token)) ||
  (automaton.startingWith (.token token)).any fun number =>
    !(state.starts.getD (automaton.productions.getD number default).part.index ∅).isEmpty

/-! ## Actions -/

/-- The productions that may end before a token, as far as precedence leaves them, with the side
that they form against going on. -/
structure Finish where
  reductions : List Reduction
  claimant : Claimant
  sides : List Side

/-- Adds a finished production.  A tighter one replaces what was found, a looser one is dropped. -/
def Finish.add (finish : Finish) (production : Production) : Finish :=
  let reduction : Reduction := ⟨production.part, production.steps, production.preference⟩
  match finish.reductions with
  | [] => ⟨[reduction], ⟨production.level, [production.part]⟩, [production.side]⟩
  | found =>
    match Precedence.compare ⟨production.level, [production.part]⟩ finish.claimant with
    | .gt => ⟨[reduction], ⟨production.level, [production.part]⟩, [production.side]⟩
    | .eq =>
      ⟨found ++ [reduction], ⟨production.level, production.part :: finish.claimant.parts⟩,
        production.side :: finish.sides⟩
    | .lt => finish

def finishOf (automaton : Automaton) (state : State) (token : Nat) : Finish :=
  state.kernel.foldl
    (fun finish item =>
      let production := automaton.productionOf item
      if item.dot == production.steps.size && item.ahead.contains token then finish.add production
      else finish)
    ⟨[], ⟨.none, []⟩, []⟩

def continuing (automaton : Automaton) (state : State) (token : Nat) : List (Level × Part) :=
  state.kernel.foldl
    (fun found item =>
      match automaton.awaited? item with
      | some symbol =>
        let production := automaton.productionOf item
        if item.dot != 0 && !found.contains (production.level, production.part) &&
            (symbol.first automaton.first).contains token then
          (production.level, production.part) :: found
        else found
      | none => found)
    []

/-- What a state does with a token.  Between finishing and going on, the tighter side wins; of equal
sides, the productions that finish decide if they agree; otherwise both are tried. -/
def actions (automaton : Automaton) (state : State) (token : Nat) : Actions :=
  let finish := automaton.finishOf state token
  if !automaton.canShift state token then ⟨finish.reductions, false⟩
  else if finish.reductions.isEmpty then ⟨[], true⟩
  else
    let orders := (automaton.continuing state token).map fun (level, part) =>
      Precedence.compare ⟨level, [part]⟩ finish.claimant
    let tighter := orders.contains .gt
    let looser := orders.contains .lt
    if tighter && !looser then ⟨[], true⟩
    else if looser && !tighter then ⟨finish.reductions, false⟩
    else if tighter then ⟨finish.reductions, true⟩
    else if finish.sides.all (· == .left) then ⟨finish.reductions, false⟩
    else if finish.sides.all (· == .right) then ⟨[], true⟩
    else ⟨finish.reductions, true⟩

end Automaton

end DecoratorVeil.Grammar
