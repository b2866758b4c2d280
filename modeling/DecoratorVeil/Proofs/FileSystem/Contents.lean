import DecoratorVeil.Host
import DecoratorVeil.Proofs.Declaration.Conversion
import Mathlib.Tactic.Common

/-!
# Changing the contents of files

Overwriting a file changes its content and nothing else: directories, links and the places of files
stay.  Where paths lead depends on these alone, so every path leads to the same place after files
have been overwritten.
-/

namespace DecoratorVeil.FileSystem

/-! ## Entries -/

theorem lookup_filter_of_ne {location other : Location} (h : other ≠ location)
    (entries : List (Location × Entry)) :
    (entries.filter (·.1 != location)).lookup other = entries.lookup other := by
  induction entries with
  | nil => rfl
  | cons entry rest ih =>
    obtain ⟨place, found⟩ := entry
    by_cases hplace : place = location
    · subst place
      simp [ih, List.lookup_cons, beq_false_of_ne h]
    · simp [hplace, List.lookup_cons, ih]

theorem entry?_of_ne_nil (files : FileSystem) {location : Location} (h : location ≠ []) :
    files.entry? location = files.entries.lookup location := by
  simp [ entry?, h]

theorem entry?_put_self (files : FileSystem) {location : Location} (entry : Entry)
    (h : location ≠ []) : entry? (files.put location entry) location = some entry := by
  simp [ entry?, h, put]

theorem entry?_put_of_ne (files : FileSystem) {location other : Location} (entry : Entry)
    (h : other ≠ location) : entry? (files.put location entry) other = files.entry? other := by
  by_cases hroot : other = []
  · simp [ entry?, hroot]
  · rw [entry?_of_ne_nil _ hroot, entry?_of_ne_nil _ hroot, put, erase, List.lookup_cons,
      beq_false_of_ne h, lookup_filter_of_ne h]

def content? (files : FileSystem) (location : Location) : Option (List UInt8) :=
  match files.entry? location with
  | some (.file content _) => some content
  | _ => none

theorem content?_eq_some_iff {files : FileSystem} {location : Location} {content : List UInt8} :
    files.content? location = some content ↔
      ∃ mode, files.entry? location = some (.file content mode) := by
  unfold content?
  split
  · simp_all
  · rename_i hother
    exact iff_of_false nofun fun ⟨mode, h⟩ => hother content mode h

theorem ne_nil_of_content? {files : FileSystem} {location : Location} {content : List UInt8}
    (h : files.content? location = some content) : location ≠ [] := by
  rintro rfl
  obtain ⟨mode, hentry⟩ := content?_eq_some_iff.1 h
  simp [ entry?] at hentry

theorem content?_put_self (files : FileSystem) {location : Location} (content : List UInt8)
    (mode : Mode) (h : location ≠ []) :
    (files.put location (.file content mode)).content? location = some content :=
  content?_eq_some_iff.2 ⟨mode, entry?_put_self files _ h⟩

theorem content?_put_of_ne (files : FileSystem) {location other : Location} (entry : Entry)
    (h : other ≠ location) : (files.put location entry).content? other = files.content? other := by
  rw [content?, content?, entry?_put_of_ne files entry h]

/-- A file is read where its path leads to a file that may be read. -/
theorem read_eq_ok_iff {files : FileSystem} {directory : Location} {path : String}
    {content : List UInt8} : files.read directory path = .ok content ↔
      ∃ place mode, files.find directory path = .ok place ∧
        files.entry? place = some (.file content mode) ∧ mode.readable = true := by
  rw [read, bind_eq_ok_iff]
  refine exists_congr fun place => ?_
  rw [exists_and_left]
  refine and_congr_right fun _ => ?_
  split
  · rename_i found mode hentry
    split_ifs with hreadable
    · constructor
      · rintro ⟨⟩
        exact ⟨mode, hentry, hreadable⟩
      · rintro ⟨mode', hentry', -⟩
        cases hentry.symm.trans hentry'
        rfl
    · refine iff_of_false nofun ?_
      rintro ⟨mode', hentry', hreadable'⟩
      cases hentry.symm.trans hentry'
      exact hreadable hreadable'
  · rename_i entry hother hentry
    refine iff_of_false nofun ?_
    rintro ⟨mode, hfile, -⟩
    exact hother content mode (Option.some.inj (hentry.symm.trans hfile))
  · rename_i hentry
    refine iff_of_false nofun ?_
    rintro ⟨mode, hfile, -⟩
    cases hentry.symm.trans hfile

theorem content?_of_read {files : FileSystem} {directory : Location} {path : String}
    {content : List UInt8} (h : files.read directory path = .ok content) :
    ∃ place, files.find directory path = .ok place ∧ files.content? place = some content := by
  obtain ⟨place, mode, hfind, hentry, -⟩ := read_eq_ok_iff.1 h
  exact ⟨place, hfind, content?_eq_some_iff.2 ⟨mode, hentry⟩⟩

theorem overwrite_eq_ok {files after : FileSystem} {directory : Location} {path : String}
    {content : List UInt8} (h : files.overwrite directory path content = .ok after) :
    ∃ place old mode, files.find directory path = .ok place ∧
      files.entry? place = some (.file old mode) ∧ mode.writable = true ∧
      after = files.put place (.file content mode) := by
  rw [overwrite] at h
  obtain ⟨place, hplace, h⟩ := bind_eq_ok_iff.1 h
  refine ⟨place, ?_⟩
  split at h
  · rename_i old mode hentry
    split_ifs at h with hwritable
    exact ⟨old, mode, hplace, hentry, hwritable, (Except.ok.inj h).symm⟩
  · cases h
  · cases h

/-! ## Outlines -/

/-- An entry without the content of a file. -/
def Entry.outline : Entry → Entry
  | .file _ mode => .file [] mode
  | entry => entry

/-- The file systems differ in nothing but the contents of files. -/
def SameOutline (a b : FileSystem) : Prop :=
  ∀ location, (a.entry? location).map Entry.outline = (b.entry? location).map Entry.outline

theorem SameOutline.refl (files : FileSystem) : SameOutline files files := fun _ => rfl

theorem SameOutline.trans {a b c : FileSystem} (hab : SameOutline a b) (hbc : SameOutline b c) :
    SameOutline a c := fun location => (hab location).trans (hbc location)

theorem sameOutline_put {files : FileSystem} {place : Location} {old : List UInt8}
    {mode : Mode} (content : List UInt8)
    (h : files.entry? place = some (.file old mode)) :
    SameOutline files (files.put place (.file content mode)) := by
  intro location
  have hroot : place ≠ [] := ne_nil_of_content? (content?_eq_some_iff.2 ⟨mode, h⟩)
  by_cases hplace : location = place
  · rw [hplace, h, entry?_put_self _ _ hroot]
    rfl
  · rw [entry?_put_of_ne _ _ hplace]

section SameOutline

variable {a b : FileSystem}

/-- What stands at a location is the same, or is a file in both. -/
theorem SameOutline.entry_cases (h : SameOutline a b) (location : Location) :
    a.entry? location = b.entry? location ∨ ∃ first second mode,
      a.entry? location = some (.file first mode) ∧
        b.entry? location = some (.file second mode) := by
  have hsame := h location
  rcases ha : a.entry? location with _ | (_ | ⟨first, mode⟩ | target) <;>
    rcases hb : b.entry? location with _ | (_ | ⟨second, other⟩ | target) <;>
    simp_all [Entry.outline]

/-- Entries of the same outline and content are the same. -/
theorem SameOutline.entry_eq (h : SameOutline a b) {location : Location}
    (hcontent : a.content? location = b.content? location) :
    a.entry? location = b.entry? location := by
  rcases h.entry_cases location with hsame | ⟨first, second, mode, ha, hb⟩
  · exact hsame
  · rw [content?_eq_some_iff.2 ⟨mode, ha⟩,
      content?_eq_some_iff.2 ⟨mode, hb⟩] at hcontent
    rw [ha, hb, Option.some.inj hcontent]

theorem SameOutline.isSome_content? (h : SameOutline a b) (location : Location) :
    (a.content? location).isSome = (b.content? location).isSome := by
  rcases h.entry_cases location with hsame | ⟨first, second, mode, ha, hb⟩
  · rw [content?, content?, hsame]
  · rw [content?_eq_some_iff.2 ⟨mode, ha⟩, content?_eq_some_iff.2 ⟨mode, hb⟩]
    rfl

theorem SameOutline.directory_iff (h : SameOutline a b) (location : Location) :
    a.entry? location = some .directory ↔ b.entry? location = some .directory := by
  rcases h.entry_cases location with hsame | ⟨first, second, mode, ha, hb⟩
  · rw [hsame]
  · simp [ha, hb]

theorem SameOutline.link?_eq (h : SameOutline a b) {location : Location} (hne : location ≠ []) :
    a.link? location = b.link? location := by
  have hcases := h.entry_cases location
  rw [entry?_of_ne_nil a hne, entry?_of_ne_nil b hne] at hcases
  rcases hcases with hsame | ⟨first, second, mode, ha, hb⟩
  · rw [link?, link?, hsame]
  · rw [link?, link?, ha, hb]

/-! ## Where paths lead -/

theorem SameOutline.walk_eq (h : SameOutline a b) (budget : Nat) (location : Location)
    (names : List String) : a.walk budget location names = b.walk budget location names := by
  fun_induction walk a budget location names with
  | case1 => rw [walk]
  | case2 budget location name rest hplain =>
    rw [walk]
    simp [← h.directory_iff, hplain]
  | case3 budget location name rest hdirectory hvoid ih =>
    rw [walk]
    simp [← h.directory_iff, hdirectory, hvoid, ih]
  | case4 budget location name rest hdirectory hvoid hup ih =>
    rw [walk]
    simp [← h.directory_iff, hdirectory, hvoid, hup, ih]
  | case5 budget location name rest hdirectory hvoid hup hlong =>
    rw [walk]
    simp [← h.directory_iff, hdirectory, hvoid, hup, hlong]
  | case6 budget location name rest hdirectory hvoid hup hlong hnone =>
    have hsame : b.entry? (location ++ [name]) = none := by
      simpa [hnone, eq_comm] using (h.entry_cases (location ++ [name]))
    rw [walk]
    simp [← h.directory_iff, hdirectory, hvoid, hup, hlong, hsame]
  | case7 location name rest hdirectory hvoid hup hlong target hlink =>
    have hsame : b.entry? (location ++ [name]) = some (.link target) := by
      simpa [hlink, eq_comm] using (h.entry_cases (location ++ [name]))
    rw [walk]
    simp [← h.directory_iff, hdirectory, hvoid, hup, hlong, hsame]
  | case8 location name rest hdirectory hvoid hup hlong target hlink left ih =>
    have hsame : b.entry? (location ++ [name]) = some (.link target) := by
      simpa [hlink, eq_comm] using (h.entry_cases (location ++ [name]))
    rw [walk]
    simpa [← h.directory_iff, hdirectory, hvoid, hup, hlong, hsame] using ih
  | case9 budget location name rest hdirectory hvoid hup hlong entry hplain hentry ih =>
    have hsame : ∃ other, b.entry? (location ++ [name]) = some other ∧
        ∀ target, other ≠ .link target := by
      rcases h.entry_cases (location ++ [name]) with hsame | ⟨_, second, mode, _, hb⟩
      · exact ⟨entry, hsame ▸ hentry, hplain⟩
      · exact ⟨_, hb, nofun⟩
    obtain ⟨other, hother, hnolink⟩ := hsame
    rw [walk]
    cases other with
    | link target => exact absurd rfl (hnolink target)
    | directory | file => simp [← h.directory_iff, hdirectory, hvoid, hup, hlong, hother, ih]

theorem SameOutline.find_eq (h : SameOutline a b) (directory : Location) (path : String) :
    a.find directory path = b.find directory path := by
  rw [find, find, h.walk_eq]

section Follow

variable {files : FileSystem} {memory : Memory} {location : Location} {name target : String}
  {rest : List Task} (hvoid : ¬ isVoid name = true) (hup : ¬ (name == "..") = true)
  (hzero : ¬ hasZero name = true)
include hvoid hup hzero

theorem follow_enter_of_plain (hlink : files.link? (location ++ [name]) = none) :
    files.follow memory location (.enter name :: rest) =
      files.follow memory (location ++ [name]) rest := by
  rw [follow, if_neg hvoid, if_neg hup, if_neg hzero]
  dsimp only
  split
  · rfl
  · simp_all

theorem follow_enter_of_settled {known : Location}
    (hlink : files.link? (location ++ [name]) = some target)
    (hknown : memory.settled.lookup (location ++ [name]) = some known) :
    files.follow memory location (.enter name :: rest) = files.follow memory known rest := by
  rw [follow, if_neg hvoid, if_neg hup, if_neg hzero]
  dsimp only
  split
  · simp_all
  · simp only [hknown]

theorem follow_enter_of_visited (hlink : files.link? (location ++ [name]) = some target)
    (hknown : memory.settled.lookup (location ++ [name]) = none)
    (hvisited : memory.visited.contains (location ++ [name]) = true) :
    files.follow memory location (.enter name :: rest) = .loop (location ++ [name]) rest := by
  rw [follow, if_neg hvoid, if_neg hup, if_neg hzero]
  dsimp only
  split
  · simp_all
  · simp only [hknown, dif_pos hvisited]

theorem follow_enter_of_link (hlink : files.link? (location ++ [name]) = some target)
    (hknown : memory.settled.lookup (location ++ [name]) = none)
    (hvisited : ¬ memory.visited.contains (location ++ [name]) = true) :
    files.follow memory location (.enter name :: rest) =
      files.follow { memory with visited := (location ++ [name]) :: memory.visited }
        (if isAbsolute target then [] else location)
        ((rawNames target).map .enter ++ .settle (location ++ [name]) :: rest) := by
  rw [follow, if_neg hvoid, if_neg hup, if_neg hzero]
  dsimp only
  split
  · simp_all
  · rename_i found hfound
    obtain rfl : found = target := Option.some.inj (hfound.symm.trans hlink)
    simp only [hknown, dif_neg hvisited]

end Follow

theorem SameOutline.follow_eq (h : SameOutline a b) (memory : Memory) (location : Location)
    (tasks : List Task) : a.follow memory location tasks = b.follow memory location tasks := by
  have hlinks (location : Location) (name : String) :
      b.link? (location ++ [name]) = a.link? (location ++ [name]) :=
    (h.link?_eq (by simp)).symm
  fun_induction follow a memory location tasks with
  | case1 => rw [follow]
  | case2 memory location link rest ih => rw [ih, follow]
  | case3 memory location name rest hvoid ih => rw [ih, follow, if_pos hvoid]
  | case4 memory location name rest hvoid hup ih => rw [ih, follow, if_neg hvoid, if_pos hup]
  | case5 memory location name rest hvoid hup hzero =>
    rw [follow, if_neg hvoid, if_neg hup, if_pos hzero]
  | case6 memory location name rest hvoid hup hzero next hlink ih =>
    rw [ih, follow_enter_of_plain hvoid hup hzero ((hlinks location name).trans hlink)]
  | case7 memory location name rest hvoid hup hzero next target hlink known hknown ih =>
    rw [ih, follow_enter_of_settled hvoid hup hzero ((hlinks location name).trans hlink) hknown]
  | case8 memory location name rest hvoid hup hzero next target hlink hknown hvisited =>
    rw [follow_enter_of_visited hvoid hup hzero ((hlinks location name).trans hlink) hknown
      hvisited]
  | case9 memory location name rest hvoid hup hzero next target hlink hknown hvisited _ ih =>
    rw [follow_enter_of_link hvoid hup hzero ((hlinks location name).trans hlink) hknown hvisited]
    exact ih

theorem SameOutline.resolve_eq (h : SameOutline a b) (current : Location) (base : Option String)
    (path : String) : a.resolve current base path = b.resolve current base path := by
  have hfrom (start : Location) (names : List String) :
      a.resolveFrom start names = b.resolveFrom start names := by
    simp only [resolveFrom, h.follow_eq, h.find_eq]
  simp only [resolve, hfrom]

end SameOutline

end DecoratorVeil.FileSystem
