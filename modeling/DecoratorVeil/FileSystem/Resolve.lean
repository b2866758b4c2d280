import DecoratorVeil.FileSystem.Walk

/-!
# Resolving paths

The absolute path without links that a path stands for.  What does not exist is kept as it is.  A
link that leads back to itself leaves the rest of the path as it stands; if the outcome cannot be
followed, it is a loop.
-/

namespace DecoratorVeil.FileSystem

/-- A name to follow, or the point at which a link has been followed to its end. -/
inductive Task where
  | enter (name : String)
  | settle (link : Location)

/-- The links met so far, and where those lead that have been followed to their end. -/
structure Memory where
  visited : List Location
  settled : List (Location × Location)

inductive Resolution where
  | place (location : Location)
  /-- A link met again before its end, and what was still to be done. -/
  | loop (link : Location) (rest : List Task)
  | zeroCharacter

/-- The number of entries at locations not in a list. -/
def unvisited (files : FileSystem) (visited : List Location) : Nat :=
  files.entries.countP (fun entry => !visited.contains entry.1)

theorem mem_entries_of_link? {files : FileSystem} {location : Location} {target : String}
    (h : files.link? location = some target) : ∃ entry ∈ files.entries, entry.1 = location := by
  unfold link? at h
  split at h
  · rename_i t ht
    obtain ⟨l₁, l₂, hl, -⟩ := List.lookup_eq_some_iff.1 ht
    exact ⟨(location, .link t), by simp [hl], rfl⟩
  · simp at h

theorem unvisited_cons_lt {files : FileSystem} {visited : List Location} {location : Location}
    (hmem : ∃ entry ∈ files.entries, entry.1 = location)
    (hnew : visited.contains location = false) :
    files.unvisited (location :: visited) < files.unvisited visited := by
  obtain ⟨entry, hentry, rfl⟩ := hmem
  unfold unvisited
  have hle : ∀ entries : List (Location × Entry),
      entries.countP (fun e => !(entry.1 :: visited).contains e.1) ≤
        entries.countP (fun e => !visited.contains e.1) := fun entries =>
    List.countP_mono_left fun e _ h => by simp at h ⊢; exact h.2
  obtain ⟨before, after, hsplit⟩ := List.append_of_mem hentry
  rw [hsplit, List.countP_append, List.countP_append, List.countP_cons, List.countP_cons]
  have h1 := hle before
  have h2 := hle after
  have h3 : (!(entry.1 :: visited).contains entry.1) = false := by simp
  have h4 : (!visited.contains entry.1) = true := by rw [hnew]; rfl
  rw [if_neg (by rw [h3]; exact Bool.false_ne_true), if_pos h4]
  omega

/-- Does the tasks from a location on.  The length of what is asked of the system is not limited
here, in contrast to `find`. -/
def follow (files : FileSystem) (memory : Memory) (location : Location) :
    List Task → Resolution
  | [] => .place location
  | .settle link :: rest =>
    follow files { memory with settled := (link, location) :: memory.settled } location rest
  | .enter name :: rest =>
    if isVoid name then follow files memory location rest
    else if name == ".." then follow files memory location.dropLast rest
    else if hasZero name then .zeroCharacter
    else
      let next := location ++ [name]
      match h : files.link? next with
      | none => follow files memory next rest
      | some target =>
        match memory.settled.lookup next with
        | some known => follow files memory known rest
        | none =>
          if hv : memory.visited.contains next then .loop next rest
          else
            have := unvisited_cons_lt (mem_entries_of_link? h) (by simpa using hv)
            follow files { memory with visited := next :: memory.visited }
              (if isAbsolute target then [] else location)
              ((rawNames target).map .enter ++ .settle next :: rest)
termination_by tasks => (files.unvisited memory.visited, tasks.length)

/-- The names still to be entered for each link that is being followed, innermost first. -/
def pendingNames : List Task → List (List String)
  | [] => [[]]
  | .settle _ :: rest => [] :: pendingNames rest
  | .enter name :: rest =>
    match pendingNames rest with
    | [] => [[name]]
    | first :: more => (name :: first) :: more

/-- Appends names to a path; names that start with a slash replace it, and a slash at the end of the
path is not doubled. -/
def appendNames (path : List String) (more : List String) : List String :=
  match more with
  | [] => path
  | "" :: _ :: _ => more
  | _ => (if path.getLast? == some "" then path.dropLast else path) ++ more

/-- Whether the text of names starts with two slashes and no third one. -/
def startsWithTwoSlashes : List String → Bool
  | "" :: "" :: name :: more => name != "" || more.isEmpty
  | _ => false

/-- The path that is left when a loop is met: the rest of the path is appended unread.  Two slashes
at its start are kept. -/
def afterLoop (link : Location) (rest : List Task) : String :=
  let all := (pendingNames rest).foldl appendNames ("" :: link)
  let path := render (normalize [] all)
  if startsWithTwoSlashes all then "/" ++ path else path

/-- The absolute path without links that the names stand for, from a location on. -/
def resolveFrom (files : FileSystem) (start : Location) (names : List String) :
    Except Failure String :=
  match files.follow ⟨[], []⟩ start (names.map .enter) with
  | .zeroCharacter => .error .zeroCharacter
  | .place location => .ok (render location)
  | .loop link rest =>
    let path := afterLoop link rest
    if hasZero path then .error .zeroCharacter
    else
      match files.find [] path with
      | .error .tooManyLinks => .error (.linkLoop path)
      | _ => .ok path

/-- Resolves a path from a directory given by another path, or from the current directory.  Links
are remembered by their locations, also when that directory is given by a relative path; there the
spelling from the current directory would be remembered, and a link that leads back to itself be met
once more. -/
def resolve (files : FileSystem) (current : Location) (base : Option String) (path : String) :
    Except Failure String :=
  if isAbsolute path then files.resolveFrom [] (names path)
  else
    let directory := base.getD ""
    files.resolveFrom (if isAbsolute directory then [] else current) (names directory ++ names path)

end DecoratorVeil.FileSystem
