import DecoratorVeil.Proofs.FileSystem.Contents
import Mathlib.Order.Lattice
import Mathlib.Tactic.Common

/-!
# Following names through links

A relation that says where names lead, without a memory: a link is followed to its end before the
next name is read.  Resolving does the same with a memory of the links it has met.  It arrives where
the relation says, and it meets a link again before its end only if the relation leads nowhere,
since then the link would have to be followed in order to follow itself.
-/

namespace DecoratorVeil.FileSystem

/-- A name that is looked up, and not a dot or an empty one. -/
structure IsName (name : String) : Prop where
  solid : isVoid name = false
  down : name ≠ ".."
  zeroFree : hasZero name = false

/-- Where the target of a link is read from, if the link stands in the given directory. -/
def linkOrigin (directory : Location) (target : String) : Location :=
  if isAbsolute target then [] else directory

/-- Following names from a location arrives at a place.  The depth counts how far links are nested in
the targets of links. -/
inductive ArrivesIn (files : FileSystem) : Nat → Location → List String → Location → Prop
  | done (location : Location) : ArrivesIn files 0 location [] location
  | void {depth : Nat} {location place : Location} {name : String} {rest : List String}
      (hvoid : isVoid name = true) (hrest : ArrivesIn files depth location rest place) :
      ArrivesIn files depth location (name :: rest) place
  | up {depth : Nat} {location place : Location} {rest : List String}
      (hrest : ArrivesIn files depth location.dropLast rest place) :
      ArrivesIn files depth location (".." :: rest) place
  | plain {depth : Nat} {location place : Location} {name : String} {rest : List String}
      (hname : IsName name) (hlink : files.link? (location ++ [name]) = none)
      (hrest : ArrivesIn files depth (location ++ [name]) rest place) :
      ArrivesIn files depth location (name :: rest) place
  | link {inner outer : Nat} {location middle place : Location} {name target : String}
      {rest : List String} (hname : IsName name)
      (hlink : files.link? (location ++ [name]) = some target)
      (htarget : ArrivesIn files inner (linkOrigin location target) (rawNames target) middle)
      (hrest : ArrivesIn files outer middle rest place) :
      ArrivesIn files (max (inner + 1) outer) location (name :: rest) place

theorem ArrivesIn.unique {files : FileSystem} {depth other : Nat} {location place found : Location}
    {names : List String} (h : ArrivesIn files depth location names place)
    (hother : ArrivesIn files other location names found) : depth = other ∧ place = found := by
  have hup : isVoid ".." = false := by decide
  induction h generalizing other found with
  | done => cases hother; exact ⟨rfl, rfl⟩
  | void hvoid _ ih =>
    cases hother with
    | void _ hrest => exact ih hrest
    | up => cases hup.symm.trans hvoid
    | plain hname | link hname => cases hname.solid.symm.trans hvoid
  | up _ ih =>
    cases hother with
    | void hvoid => cases hup.symm.trans hvoid
    | up hrest => exact ih hrest
    | plain hname | link hname => exact absurd rfl hname.down
  | plain hname hlink _ ih =>
    cases hother with
    | void hvoid => cases hname.solid.symm.trans hvoid
    | up => exact absurd rfl hname.down
    | plain _ _ hrest => exact ih hrest
    | link _ hother => cases hlink.symm.trans hother
  | link hname hlink _ _ ihTarget ihRest =>
    cases hother with
    | void hvoid => cases hname.solid.symm.trans hvoid
    | up => exact absurd rfl hname.down
    | plain _ hother => cases hlink.symm.trans hother
    | link _ hother htarget hrest =>
      obtain rfl := Option.some.inj (hlink.symm.trans hother)
      obtain ⟨rfl, rfl⟩ := ihTarget htarget
      obtain ⟨rfl, rfl⟩ := ihRest hrest
      exact ⟨rfl, rfl⟩

def ResolvesIn (files : FileSystem) (depth : Nat) (link place : Location) : Prop :=
  ∃ target, files.link? link = some target ∧
    ArrivesIn files depth (linkOrigin link.dropLast target) (rawNames target) place

theorem ResolvesIn.unique {files : FileSystem} {depth other : Nat} {link place found : Location}
    (h : ResolvesIn files depth link place) (hother : ResolvesIn files other link found) :
    depth = other ∧ place = found := by
  obtain ⟨target, htarget, harrives⟩ := h
  obtain ⟨target', htarget', harrives'⟩ := hother
  obtain rfl := Option.some.inj (htarget.symm.trans htarget')
  exact harrives.unique harrives'

theorem resolvesIn_concat {files : FileSystem} {depth : Nat} {location place : Location}
    {name target : String} (hlink : files.link? (location ++ [name]) = some target)
    (htarget : ArrivesIn files depth (linkOrigin location target) (rawNames target) place) :
    ResolvesIn files depth (location ++ [name]) place :=
  ⟨target, hlink, by rwa [List.dropLast_concat]⟩

/-! ## With a memory -/

/-- A link that has been met and whose end has not been reached. -/
def Memory.Open (memory : Memory) (link : Location) : Prop :=
  link ∈ memory.visited ∧ memory.settled.lookup link = none

/-- What is remembered of a link is where it leads, and the links that are being followed are nested
at least as deep as what is to be followed next. -/
structure Memory.Fits (files : FileSystem) (memory : Memory) (depth : Nat) : Prop where
  settled : ∀ link known, memory.settled.lookup link = some known →
    ∃ inner, ResolvesIn files inner link known
  pending : ∀ link, memory.Open link → ∀ inner place, ResolvesIn files inner link place →
    depth ≤ inner

theorem Memory.Fits.mono {files : FileSystem} {memory : Memory} {depth less : Nat}
    (h : memory.Fits files depth) (hle : less ≤ depth) : memory.Fits files less :=
  ⟨h.settled, fun link hopen inner place hresolves =>
    hle.trans (h.pending link hopen inner place hresolves)⟩

section Settling

variable {files : FileSystem} {memory : Memory} {inner : Nat} {link place : Location}
  (hresolves : ResolvesIn files inner link place)
include hresolves

/-- A link that begins to be followed is nested as deep as its own target. -/
theorem Memory.Fits.visit {depth : Nat} (h : memory.Fits files depth) (hle : inner ≤ depth) :
    Memory.Fits files { memory with visited := link :: memory.visited } inner where
  settled := h.settled
  pending := by
    rintro other ⟨hvisited, hunsettled⟩ inner' place' hother
    rcases List.mem_cons.1 hvisited with rfl | hold
    · exact (hresolves.unique hother).1.le
    · exact hle.trans (h.pending other ⟨hold, hunsettled⟩ inner' place' hother)

theorem Memory.lookup_settle (other known : Location)
    (hsettled : ∀ link known, memory.settled.lookup link = some known →
      ∃ inner, ResolvesIn files inner link known)
    (h : ((link, place) :: memory.settled).lookup other = some known) :
    ∃ inner, ResolvesIn files inner other known := by
  rw [List.lookup_cons] at h
  split at h
  · rename_i hsame
    cases h
    obtain rfl : other = link := by simpa using hsame
    exact ⟨inner, hresolves⟩
  · exact hsettled other known h

end Settling

theorem Memory.open_of_settle {memory : Memory} {link place other : Location}
    (h : Memory.Open { memory with settled := (link, place) :: memory.settled } other) :
    other ≠ link ∧ memory.Open other := by
  obtain ⟨hvisited, hunsettled⟩ := h
  rw [List.lookup_cons] at hunsettled
  split at hunsettled
  · cases hunsettled
  · rename_i hdiffers
    exact ⟨by simpa using hdiffers, hvisited, hunsettled⟩

/-- With a fitting memory names are followed to where they lead, whatever is to be done then.  No
link is open afterwards that was not so before. -/
theorem ArrivesIn.follow_append {files : FileSystem} {depth : Nat} {location place : Location}
    {names : List String} (h : ArrivesIn files depth location names place) {memory : Memory}
    (hfits : memory.Fits files depth) (tasks : List Task) :
    ∃ later : Memory, later.Fits files 0 ∧ (∀ link, later.Open link → memory.Open link) ∧
      files.follow memory location (names.map .enter ++ tasks) =
        files.follow later place tasks := by
  induction h generalizing memory tasks with
  | done location => exact ⟨memory, hfits.mono (Nat.zero_le _), fun _ => id, rfl⟩
  | void hvoid _ ih =>
    obtain ⟨later, hlater, hopen, heq⟩ := ih hfits tasks
    refine ⟨later, hlater, hopen, ?_⟩
    rw [List.map_cons, List.cons_append, follow, if_pos hvoid]
    exact heq
  | up _ ih =>
    obtain ⟨later, hlater, hopen, heq⟩ := ih hfits tasks
    refine ⟨later, hlater, hopen, ?_⟩
    rw [List.map_cons, List.cons_append, follow, if_neg (by decide), if_pos (by decide)]
    exact heq
  | plain hname hlink _ ih =>
    obtain ⟨later, hlater, hopen, heq⟩ := ih hfits tasks
    refine ⟨later, hlater, hopen, ?_⟩
    rw [List.map_cons, List.cons_append, follow_enter_of_plain (by simp [hname.solid])
      (by simp [hname.down]) (by simp [hname.zeroFree]) hlink]
    exact heq
  | @link inner outer location middle place name target rest hname hlink htarget _ ihTarget
      ihRest =>
    have hvoid : ¬ isVoid name = true := by simp [hname.solid]
    have hup : ¬ (name == "..") = true := by simp [hname.down]
    have hzero : ¬ hasZero name = true := by simp [hname.zeroFree]
    have hresolves := resolvesIn_concat hlink htarget
    have hinner : inner ≤ max (inner + 1) outer := by omega
    have houter : outer ≤ max (inner + 1) outer := by omega
    rw [List.map_cons, List.cons_append]
    cases hknown : memory.settled.lookup (location ++ [name]) with
    | some known =>
      obtain ⟨other, hother⟩ := hfits.settled _ _ hknown
      obtain ⟨-, rfl⟩ := hresolves.unique hother
      obtain ⟨later, hlater, hopen, heq⟩ := ihRest (hfits.mono houter) tasks
      exact ⟨later, hlater, hopen,
        (follow_enter_of_settled hvoid hup hzero hlink hknown).trans heq⟩
    | none =>
      by_cases hvisited : memory.visited.contains (location ++ [name]) = true
      · -- The link is being followed, so it would be nested deeper than itself.
        have hdeep := hfits.pending _ ⟨by simpa using hvisited, hknown⟩ _ _ hresolves
        omega
      · obtain ⟨middleMemory, hmiddle, hmiddleOpen, htargetEq⟩ :=
          ihTarget (hfits.visit hresolves hinner)
            (.settle (location ++ [name]) :: (rest.map .enter ++ tasks))
        have hstillOpen : ∀ link, Memory.Open { middleMemory with
            settled := (location ++ [name], middle) :: middleMemory.settled } link →
              memory.Open link := by
          intro link hopen
          obtain ⟨hdiffers, hopen⟩ := Memory.open_of_settle hopen
          obtain ⟨hmem, hunsettled⟩ := hmiddleOpen link hopen
          exact ⟨(List.mem_cons.1 hmem).resolve_left hdiffers, hunsettled⟩
        have hsettledFits : Memory.Fits files { middleMemory with
            settled := (location ++ [name], middle) :: middleMemory.settled } outer :=
          ⟨fun other known => Memory.lookup_settle hresolves other known hmiddle.settled,
            fun link hopen inner' place' hother => houter.trans
              (hfits.pending link (hstillOpen link hopen) inner' place' hother)⟩
        obtain ⟨later, hlater, hopen, heq⟩ := ihRest hsettledFits tasks
        refine ⟨later, hlater, fun link hlink => hstillOpen link (hopen link hlink), ?_⟩
        rw [follow_enter_of_link hvoid hup hzero hlink hknown hvisited]
        refine htargetEq.trans ?_
        rw [follow]
        exact heq

/-! ## Without a memory -/

/-- Following names from a location arrives at a place. -/
def Arrives (files : FileSystem) (location : Location) (names : List String) (place : Location) :
    Prop := ∃ depth, ArrivesIn files depth location names place

section Arrives

variable {files : FileSystem} {location middle place : Location} {name target : String}
  {rest : List String}

theorem Arrives.done (location : Location) : Arrives files location [] location :=
  ⟨0, .done location⟩

theorem Arrives.void (hvoid : isVoid name = true) (h : Arrives files location rest place) :
    Arrives files location (name :: rest) place := by
  obtain ⟨depth, h⟩ := h
  exact ⟨depth, .void hvoid h⟩

theorem Arrives.up (h : Arrives files location.dropLast rest place) :
    Arrives files location (".." :: rest) place := by
  obtain ⟨depth, h⟩ := h
  exact ⟨depth, .up h⟩

theorem Arrives.plain (hname : IsName name) (hlink : files.link? (location ++ [name]) = none)
    (h : Arrives files (location ++ [name]) rest place) :
    Arrives files location (name :: rest) place := by
  obtain ⟨depth, h⟩ := h
  exact ⟨depth, .plain hname hlink h⟩

theorem Arrives.link (hname : IsName name)
    (hlink : files.link? (location ++ [name]) = some target)
    (htarget : Arrives files (linkOrigin location target) (rawNames target) middle)
    (h : Arrives files middle rest place) : Arrives files location (name :: rest) place := by
  obtain ⟨inner, htarget⟩ := htarget
  obtain ⟨outer, h⟩ := h
  exact ⟨max (inner + 1) outer, .link hname hlink htarget h⟩

end Arrives

theorem Arrives.eq_of_nil {files : FileSystem} {location place : Location}
    (h : Arrives files location [] place) : place = location := by
  obtain ⟨depth, h⟩ := h
  cases h
  rfl

/-- The first name leads to a location from which the other names are followed, whichever they
are. -/
theorem Arrives.uncons {files : FileSystem} {location place : Location} {name : String}
    {rest : List String} (h : Arrives files location (name :: rest) place) :
    ∃ next, Arrives files next rest place ∧ ∀ names found, Arrives files next names found →
      Arrives files location (name :: names) found := by
  obtain ⟨depth, h⟩ := h
  cases h with
  | void hvoid hrest => exact ⟨location, ⟨_, hrest⟩, fun _ _ => .void hvoid⟩
  | up hrest => exact ⟨location.dropLast, ⟨_, hrest⟩, fun _ _ => .up⟩
  | plain hname hlink hrest =>
    exact ⟨location ++ [name], ⟨_, hrest⟩, fun _ _ => .plain hname hlink⟩
  | link hname hlink htarget hrest =>
    exact ⟨_, ⟨_, hrest⟩, fun _ _ => .link hname hlink ⟨_, htarget⟩⟩

theorem Arrives.split {files : FileSystem} {location place : Location} {first second : List String}
    (h : Arrives files location (first ++ second) place) :
    ∃ middle, Arrives files location first middle ∧ Arrives files middle second place := by
  induction first generalizing location with
  | nil => exact ⟨location, .done location, h⟩
  | cons name first ih =>
    obtain ⟨next, hnext, hstep⟩ := h.uncons
    obtain ⟨middle, hfirst, hsecond⟩ := ih hnext
    exact ⟨middle, hstep _ _ hfirst, hsecond⟩

def enteredNames (tasks : List Task) : List String :=
  tasks.filterMap fun
    | .enter name => some name
    | .settle _ => none

@[simp] theorem enteredNames_enter (name : String) (tasks : List Task) :
    enteredNames (.enter name :: tasks) = name :: enteredNames tasks := rfl

@[simp] theorem enteredNames_settle (link : Location) (tasks : List Task) :
    enteredNames (.settle link :: tasks) = enteredNames tasks := rfl

@[simp] theorem enteredNames_append (first second : List Task) :
    enteredNames (first ++ second) = enteredNames first ++ enteredNames second :=
  List.filterMap_append

@[simp] theorem enteredNames_map_enter (names : List String) :
    enteredNames (names.map .enter) = names := by
  induction names with
  | nil => rfl
  | cons name names ih => rw [List.map_cons, enteredNames_enter, ih]

/-- Where the names before the end of a link lead is where the link leads. -/
def Owed (files : FileSystem) (location : Location) (tasks : List Task) : Prop :=
  ∀ before link after, tasks = before ++ .settle link :: after →
    ∀ place, Arrives files location (enteredNames before) place →
      ∃ depth, ResolvesIn files depth link place

section Owed

variable {files : FileSystem} {location next : Location} {tasks : List Task}

theorem owed_map_enter (names : List String) : Owed files location (names.map .enter) := by
  intro before link after htasks
  have hmem : Task.settle link ∈ names.map Task.enter := by simp [htasks]
  simp at hmem

theorem Owed.settle {link : Location} (h : Owed files location (.settle link :: tasks)) :
    (∃ depth, ResolvesIn files depth link location) ∧ Owed files location tasks := by
  constructor
  · exact h [] link tasks rfl location (.done location)
  · intro before other after htasks place harrives
    exact h (.settle link :: before) other after (by rw [htasks]; rfl) place harrives

theorem Owed.enter {name : String} (h : Owed files location (.enter name :: tasks))
    (hstep : ∀ names place, Arrives files next names place →
      Arrives files location (name :: names) place) : Owed files next tasks := by
  intro before link after htasks place harrives
  exact h (.enter name :: before) link after (by rw [htasks]; rfl) place (hstep _ _ harrives)

theorem owed_append {names : List String}
    (h : ∀ middle, Arrives files location names middle → Owed files middle tasks) :
    Owed files location (names.map .enter ++ tasks) := by
  induction names generalizing location with
  | nil => exact h location (.done location)
  | cons name names ih =>
    intro before link after htasks place harrives
    cases before with
    | nil => cases htasks
    | cons task before =>
      obtain ⟨rfl, hbefore⟩ := List.cons.inj htasks
      obtain ⟨next, hnext, hstep⟩ := harrives.uncons
      exact ih (fun middle hmiddle => h middle (hstep _ _ hmiddle)) before link after hbefore place
        hnext

theorem owed_settle {link : Location} (hlink : ∃ depth, ResolvesIn files depth link location)
    (h : Owed files location tasks) : Owed files location (.settle link :: tasks) := by
  intro before other after htasks place harrives
  cases before with
  | nil =>
    cases htasks
    rwa [harrives.eq_of_nil]
  | cons task before =>
    obtain ⟨rfl, hbefore⟩ := List.cons.inj htasks
    exact h before other after hbefore place harrives

end Owed

/-- What comes of following tasks is where their names lead. -/
theorem arrives_of_follow {files : FileSystem} {memory : Memory} {location place : Location}
    {tasks : List Task}
    (hsettled : ∀ link known, memory.settled.lookup link = some known →
      ∃ depth, ResolvesIn files depth link known)
    (howed : Owed files location tasks)
    (h : files.follow memory location tasks = .place place) :
    Arrives files location (enteredNames tasks) place := by
  fun_induction follow files memory location tasks with
  | case1 =>
    cases h
    exact .done _
  | case2 memory location link rest ih =>
    obtain ⟨⟨depth, hlink⟩, hrest⟩ := howed.settle
    exact ih (fun other known => Memory.lookup_settle hlink other known hsettled) hrest h
  | case3 memory location name rest hvoid ih =>
    exact .void hvoid (ih hsettled (howed.enter fun _ _ => .void hvoid) h)
  | case4 memory location name rest _ hup ih =>
    obtain rfl : name = ".." := by simpa using hup
    exact .up (ih hsettled (howed.enter fun _ _ => .up) h)
  | case5 => cases h
  | case6 memory location name rest hvoid hup hzero next hlink ih =>
    have hname : IsName name := ⟨by simpa using hvoid, by simpa using hup, by simpa using hzero⟩
    exact .plain hname hlink (ih hsettled (howed.enter fun _ _ => .plain hname hlink) h)
  | case7 memory location name rest hvoid hup hzero next target hlink known hknown ih =>
    have hname : IsName name := ⟨by simpa using hvoid, by simpa using hup, by simpa using hzero⟩
    obtain ⟨inner, target', hlink', htarget⟩ := hsettled _ _ hknown
    rw [List.dropLast_concat] at htarget
    have hstep (names : List String) (place : Location) :
        Arrives files known names place → Arrives files location (name :: names) place :=
      .link hname hlink' ⟨inner, htarget⟩
    exact hstep _ _ (ih hsettled (howed.enter hstep) h)
  | case8 => cases h
  | case9 memory location name rest hvoid hup hzero next target hlink _ _ _ ih =>
    have hname : IsName name := ⟨by simpa using hvoid, by simpa using hup, by simpa using hzero⟩
    -- The target goes before the rest, so where it leads is what the link owes.
    have howedTarget : Owed files (linkOrigin location target)
        ((rawNames target).map .enter ++ .settle next :: rest) := by
      refine owed_append fun middle hmiddle =>
        owed_settle ?_ (howed.enter fun _ _ => .link hname hlink hmiddle)
      obtain ⟨inner, htarget⟩ := hmiddle
      exact ⟨inner, resolvesIn_concat hlink htarget⟩
    have harrives := ih hsettled howedTarget h
    rw [enteredNames_append, enteredNames_map_enter, enteredNames_settle] at harrives
    obtain ⟨middle, hmiddle, hrest⟩ := harrives.split
    exact .link hname hlink hmiddle hrest

/-- Resolving arrives at a place if and only if the names lead there. -/
theorem follow_eq_place_iff {files : FileSystem} {location place : Location}
    {names : List String} :
    files.follow ⟨[], []⟩ location (names.map .enter) = .place place ↔
      Arrives files location names place := by
  have hsettled : ∀ link known, (Memory.mk [] []).settled.lookup link = some known →
      ∃ depth, ResolvesIn files depth link known := by simp
  constructor
  · intro h
    have harrives := arrives_of_follow hsettled (owed_map_enter names) h
    rwa [enteredNames_map_enter] at harrives
  · rintro ⟨depth, h⟩
    have hfits : Memory.Fits files ⟨[], []⟩ depth :=
      ⟨hsettled, fun link hopen => absurd hopen.1 List.not_mem_nil⟩
    obtain ⟨later, -, -, heq⟩ := h.follow_append hfits []
    rw [List.append_nil] at heq
    rw [heq, follow]

end DecoratorVeil.FileSystem
