import DecoratorVeil.Proofs.FileSystem.Following

/-!
# Resolved paths

The path that comes of resolving is absolute and plain: no empty names, no dots, and no link on the
way.  It is therefore resolved to itself, and looking it up arrives at the location it names.  Both
fail where a link is met again before its end: the rest of the path is then appended unread, and
what is left may be a link.
-/

namespace DecoratorVeil.FileSystem

/-! ## Names and texts -/

theorem splitSlashes_ne_nil (text : List Char) : splitSlashes text ≠ [] := by
  cases text with
  | nil => simp [splitSlashes]
  | cons c rest =>
    rw [splitSlashes]
    split
    · simp
    · split <;> simp

theorem slash_not_mem_of_splitSlashes {text piece : List Char} (h : piece ∈ splitSlashes text) :
    '/' ∉ piece := by
  induction text generalizing piece with
  | nil =>
    obtain rfl : piece = [] := by simpa [splitSlashes] using h
    exact List.not_mem_nil
  | cons c rest ih =>
    rw [splitSlashes] at h
    split at h
    · rcases List.mem_cons.1 h with rfl | h
      · exact List.not_mem_nil
      · exact ih h
    · rename_i hc
      have hc : '/' ≠ c := by
        rintro rfl
        simp at hc
      cases hrest : splitSlashes rest with
      | nil => exact absurd hrest (splitSlashes_ne_nil rest)
      | cons first more =>
        rw [hrest] at h ih
        rcases List.mem_cons.1 h with rfl | h
        · simpa [hc] using ih (List.mem_cons_self ..)
        · exact ih (List.mem_cons_of_mem _ h)

theorem splitSlashes_of_not_mem {text : List Char} (h : '/' ∉ text) :
    splitSlashes text = [text] := by
  induction text with
  | nil => rfl
  | cons c rest ih =>
    rw [List.mem_cons, not_or] at h
    simp [splitSlashes, Ne.symm h.1, ih h.2]

theorem splitSlashes_append {first : List Char} (h : '/' ∉ first) (rest : List Char) :
    splitSlashes (first ++ '/' :: rest) = first :: splitSlashes rest := by
  induction first with
  | nil => simp [splitSlashes]
  | cons c first ih =>
    rw [List.mem_cons, not_or] at h
    simp [splitSlashes, Ne.symm h.1, ih h.2]

theorem splitSlashes_intercalate {pieces : List (List Char)} (hne : pieces ≠ [])
    (h : ∀ piece ∈ pieces, '/' ∉ piece) :
    splitSlashes (List.intercalate ['/'] pieces) = pieces := by
  induction pieces with
  | nil => exact absurd rfl hne
  | cons piece pieces ih =>
    obtain ⟨hpiece, hpieces⟩ := List.forall_mem_cons.1 h
    cases pieces with
    | nil => rw [List.intercalate_singleton, splitSlashes_of_not_mem hpiece]
    | cons next more =>
      rw [List.intercalate_cons_cons, List.append_assoc, List.singleton_append,
        splitSlashes_append hpiece, ih (by simp) hpieces]

def SlashFree (names : List String) : Prop :=
  ∀ name ∈ names, '/' ∉ name.toList

theorem SlashFree.append {first second : List String} (hfirst : SlashFree first)
    (hsecond : SlashFree second) : SlashFree (first ++ second) := by
  intro name hname
  rcases List.mem_append.1 hname with hname | hname
  · exact hfirst name hname
  · exact hsecond name hname

theorem slashFree_rawNames (path : String) : SlashFree (rawNames path) := by
  intro name hname
  obtain ⟨piece, hpiece, rfl⟩ := List.mem_map.1 hname
  rw [String.toList_ofList]
  exact slash_not_mem_of_splitSlashes hpiece

theorem slashFree_names (path : String) : SlashFree (names path) :=
  fun name hname => slashFree_rawNames path name (List.mem_filter.1 hname).1

theorem toList_render (location : Location) :
    (render location).toList = '/' :: List.intercalate ['/'] (location.map String.toList) := by
  simp [render, String.toList_intercalate]

theorem isAbsolute_render (location : Location) : isAbsolute (render location) = true := by
  rw [isAbsolute, toList_render]
  rfl

/-- The text of a location has the names of the location, after the empty one in front of the first
slash. -/
theorem rawNames_render {location : Location} (hne : location ≠ [])
    (h : SlashFree location) : rawNames (render location) = "" :: location := by
  have hpieces : ∀ piece ∈ location.map String.toList, '/' ∉ piece := List.forall_mem_map.2 h
  rw [rawNames, toList_render, splitSlashes, if_pos (by decide),
    splitSlashes_intercalate (by simpa using hne) hpieces]
  simp

/-! ## Locations without links -/

/-- A name that can stand in a location. -/
structure ProperName (name : String) : Prop extends IsName name where
  slashFree : '/' ∉ name.toList

/-- A location of proper names with no link on the way to it. -/
structure Clear (files : FileSystem) (location : Location) : Prop where
  proper : ∀ name ∈ location, ProperName name
  linkFree : ∀ front, front <+: location → ∀ target, files.entry? front ≠ some (.link target)

theorem link?_eq_some_iff {files : FileSystem} {location : Location} {target : String}
    (hne : location ≠ []) :
    files.link? location = some target ↔ files.entry? location = some (.link target) := by
  rw [entry?_of_ne_nil files hne, link?]
  split
  · simp_all
  · rename_i hother
    exact iff_of_false (by simp) fun h => hother target h

section Clear

variable {files : FileSystem} {location place front : Location} {name : String}

theorem clear_nil (files : FileSystem) : Clear files [] where
  proper := by simp
  linkFree := by
    intro front hfront target
    rw [List.prefix_nil.1 hfront]
    simp [ entry?]

theorem Clear.of_prefix (h : Clear files location) (hfront : front <+: location) :
    Clear files front :=
  ⟨fun name hname => h.proper name (hfront.subset hname),
    fun other hother => h.linkFree other (hother.trans hfront)⟩

theorem Clear.concat (h : Clear files location) (hname : ProperName name)
    (hlink : files.link? (location ++ [name]) = none) : Clear files (location ++ [name]) where
  proper := by
    intro other hother
    rcases List.mem_append.1 hother with hother | hother
    · exact h.proper other hother
    · rwa [List.mem_singleton.1 hother]
  linkFree := by
    intro front hfront target hentry
    rcases List.prefix_concat_iff.1 hfront with rfl | hfront
    · rw [(link?_eq_some_iff (by simp)).2 hentry] at hlink
      cases hlink
    · exact h.linkFree front hfront target hentry

/-- What a location without links leads to has no links on the way. -/
theorem ArrivesIn.clear {depth : Nat} {names : List String}
    (h : ArrivesIn files depth location names place)
    (hnames : SlashFree names) (hclear : Clear files location) :
    Clear files place := by
  induction h with
  | done => exact hclear
  | void _ _ ih => exact ih (List.forall_mem_cons.1 hnames).2 hclear
  | up _ ih =>
    exact ih (List.forall_mem_cons.1 hnames).2 (hclear.of_prefix (List.dropLast_prefix _))
  | plain hname hlink _ ih =>
    obtain ⟨hslash, hrest⟩ := List.forall_mem_cons.1 hnames
    exact ih hrest (hclear.concat ⟨hname, hslash⟩ hlink)
  | @link inner outer location middle place name target rest _ _ _ _ ihTarget ihRest =>
    refine ihRest (List.forall_mem_cons.1 hnames).2
      (ihTarget (slashFree_rawNames target) ?_)
    by_cases habsolute : isAbsolute target = true
    · rw [linkOrigin, if_pos habsolute]
      exact clear_nil files
    · rw [linkOrigin, if_neg habsolute]
      exact hclear

/-- The names of a location without links lead to it. -/
theorem Clear.arrives {names : List String} (h : Clear files (location ++ names)) :
    Arrives files location names (location ++ names) := by
  induction names generalizing location with
  | nil =>
    rw [List.append_nil]
    exact .done location
  | cons name names ih =>
    have hsplit : location ++ name :: names = location ++ [name] ++ names := by simp
    have hname : ProperName name := h.proper name (by simp)
    have hlink : files.link? (location ++ [name]) = none := by
      rw [Option.eq_none_iff_forall_ne_some]
      intro target htarget
      have hentry := (link?_eq_some_iff (by simp)).1 htarget
      exact h.linkFree _ ⟨names, hsplit.symm⟩ target hentry
    rw [hsplit] at h ⊢
    exact .plain hname.toIsName hlink (ih h)

/-- Looking up the names of a location without links goes nowhere else. -/
theorem Clear.eq_of_walk {names : List String} {budget : Nat} {found : Location}
    (h : Clear files (location ++ names))
    (hwalk : files.walk budget location names = .ok found) : found = location ++ names := by
  induction names generalizing location with
  | nil =>
    rw [walk] at hwalk
    cases hwalk
    simp
  | cons name names ih =>
    have hsplit : location ++ name :: names = location ++ [name] ++ names := by simp
    have hname : ProperName name := h.proper name (by simp)
    rw [walk] at hwalk
    simp only [hname.solid, beq_eq_false_iff_ne.2 hname.down, Bool.false_eq_true, if_false]
      at hwalk
    split_ifs at hwalk
    split at hwalk
    · cases hwalk
    · rename_i target hentry
      exact absurd hentry (h.linkFree _ ⟨names, hsplit.symm⟩ target)
    · rw [hsplit] at h ⊢
      exact ih h hwalk

theorem walk_root_void (files : FileSystem) (budget : Nat) (names : List String) :
    files.walk budget [] ("" :: names) = files.walk budget [] names := by
  rw [walk]
  simp [ entry?, isVoid]

theorem Clear.eq_of_find {found : Location} (h : Clear files place)
    (hfind : files.find [] (render place) = .ok found) : found = place := by
  rw [find, if_pos (isAbsolute_render place)] at hfind
  split_ifs at hfind
  -- The text of the root is one slash between two empty names.
  by_cases hroot : place = []
  · subst hroot
    have hnames : rawNames (render []) = ["", ""] := by decide
    rw [hnames, walk_root_void, walk_root_void, walk] at hfind
    cases hfind
    rfl
  · rw [rawNames_render hroot fun name hname => (h.proper name hname).slashFree,
      walk_root_void] at hfind
    exact Clear.eq_of_walk (by rwa [List.nil_append]) hfind

end Clear

/-! ## Resolving -/

theorem mem_normalize {start : Location} {names : List String} {name : String}
    (h : name ∈ normalize start names) :
    name ∈ start ∨ name ∈ names ∧ isVoid name = false ∧ name ≠ ".." := by
  induction names generalizing start with
  | nil => exact .inl h
  | cons first names ih =>
    change name ∈ normalize (stepLexically start first) names at h
    rcases ih h with hstep | ⟨hnames, hname⟩
    · rw [stepLexically] at hstep
      split_ifs at hstep with hvoid hup
      · exact .inl hstep
      · exact .inl (List.dropLast_subset _ hstep)
      · rcases List.mem_append.1 hstep with hstart | hfirst
        · exact .inl hstart
        · obtain rfl := List.mem_singleton.1 hfirst
          exact .inr ⟨List.mem_cons_self .., by simpa using hvoid, by simpa using hup⟩
    · exact .inr ⟨List.mem_cons_of_mem _ hnames, hname⟩

theorem SlashFree.appendNames {path more : List String} (hpath : SlashFree path)
    (hmore : SlashFree more) : SlashFree (appendNames path more) := by
  unfold FileSystem.appendNames
  split
  · exact hpath
  · exact hmore
  · refine SlashFree.append ?_ hmore
    split_ifs
    · exact fun name hname => hpath name (List.dropLast_subset _ hname)
    · exact hpath

theorem SlashFree.foldl_appendNames {path : List String} {pieces : List (List String)}
    (hpath : SlashFree path) (hpieces : ∀ piece ∈ pieces, SlashFree piece) :
    SlashFree (pieces.foldl FileSystem.appendNames path) := by
  induction pieces generalizing path with
  | nil => exact hpath
  | cons piece pieces ih =>
    obtain ⟨hpiece, hmore⟩ := List.forall_mem_cons.1 hpieces
    exact ih (hpath.appendNames hpiece) hmore

theorem slashFree_pendingNames {tasks : List Task} (h : SlashFree (enteredNames tasks)) :
    ∀ piece ∈ pendingNames tasks, SlashFree piece := by
  induction tasks with
  | nil => simp [pendingNames, SlashFree]
  | cons task tasks ih =>
    cases task with
    | settle link =>
      rw [pendingNames, List.forall_mem_cons]
      exact ⟨by simp [SlashFree], ih h⟩
    | enter name =>
      obtain ⟨hname, hrest⟩ := List.forall_mem_cons.1 h
      have hpieces := ih hrest
      rw [pendingNames]
      cases hpending : pendingNames tasks with
      | nil => simpa [SlashFree] using hname
      | cons first more =>
        rw [hpending, List.forall_mem_cons] at hpieces
        exact List.forall_mem_cons.2
          ⟨List.forall_mem_cons.2 ⟨hname, hpieces.1⟩, hpieces.2⟩

/-- A link that is met again, and the names that are left then, have no slashes in their names. -/
theorem slashFree_of_loop {files : FileSystem} {memory : Memory} {location link : Location}
    {tasks rest : List Task}
    (hsettled : ∀ link known, memory.settled.lookup link = some known → SlashFree known)
    (hlocation : SlashFree location) (htasks : SlashFree (enteredNames tasks))
    (h : files.follow memory location tasks = .loop link rest) :
    SlashFree link ∧ SlashFree (enteredNames rest) := by
  fun_induction follow files memory location tasks with
  | case1 => cases h
  | case2 memory location settled more ih =>
    refine ih (fun other known hknown => ?_) hlocation htasks h
    rw [List.lookup_cons] at hknown
    split at hknown
    · cases hknown
      exact hlocation
    · exact hsettled other known hknown
  | case3 memory location name more _ ih =>
    exact ih hsettled hlocation (List.forall_mem_cons.1 htasks).2 h
  | case4 memory location name more _ _ ih =>
    exact ih hsettled (fun other hother => hlocation other (List.dropLast_subset _ hother))
      (List.forall_mem_cons.1 htasks).2 h
  | case5 => cases h
  | case6 memory location name more _ _ _ next _ ih =>
    obtain ⟨hname, hmore⟩ := List.forall_mem_cons.1 htasks
    exact ih hsettled (hlocation.append (by simpa [SlashFree] using hname)) hmore h
  | case7 memory location name more _ _ _ next target _ known hknown ih =>
    exact ih hsettled (hsettled _ _ hknown) (List.forall_mem_cons.1 htasks).2 h
  | case8 memory location name more =>
    obtain ⟨hname, hmore⟩ := List.forall_mem_cons.1 htasks
    obtain ⟨rfl, rfl⟩ := Resolution.loop.inj h
    exact ⟨hlocation.append (by simpa [SlashFree] using hname), hmore⟩
  | case9 memory location name more _ _ _ next target _ _ _ _ ih =>
    refine ih hsettled ?_ ?_ h
    · split_ifs
      · simp [SlashFree]
      · exact hlocation
    · rw [enteredNames_append, enteredNames_map_enter, enteredNames_settle]
      exact (slashFree_rawNames target).append (List.forall_mem_cons.1 htasks).2

theorem mem_intercalate {pieces : List (List Char)} {piece : List Char} {c : Char}
    (hpiece : piece ∈ pieces) (hc : c ∈ piece) : c ∈ List.intercalate ['/'] pieces := by
  induction pieces with
  | nil => cases hpiece
  | cons first pieces ih =>
    cases pieces with
    | nil =>
      rw [List.intercalate_singleton]
      rwa [← List.mem_singleton.1 hpiece]
    | cons next more =>
      rw [List.intercalate_cons_cons, List.mem_append]
      rcases List.mem_cons.1 hpiece with rfl | hpiece
      · exact .inl (List.mem_append_left _ hc)
      · exact .inr (ih hpiece)

/-- What is left of a path after a loop has proper names, and one more slash in front at most. -/
theorem exists_render_of_afterLoop {link : Location} {rest : List Task} (hlink : SlashFree link)
    (hrest : SlashFree (enteredNames rest)) (hzero : hasZero (afterLoop link rest) = false) :
    ∃ place, (∀ name ∈ place, ProperName name) ∧
      (afterLoop link rest = render place ∨ afterLoop link rest = "/" ++ render place) := by
  have hall : SlashFree ((pendingNames rest).foldl FileSystem.appendNames ("" :: link)) :=
    SlashFree.foldl_appendNames (List.forall_mem_cons.2 ⟨by simp, hlink⟩)
      (slashFree_pendingNames hrest)
  generalize hnames : (pendingNames rest).foldl FileSystem.appendNames ("" :: link) = all at hall
  have hcases : afterLoop link rest = render (normalize [] all) ∨
      afterLoop link rest = "/" ++ render (normalize [] all) := by
    rw [afterLoop, hnames]
    split_ifs
    · exact .inr rfl
    · exact .inl rfl
  refine ⟨normalize [] all, fun name hname => ?_, hcases⟩
  obtain ⟨hmem, hsolid, hdown⟩ := (mem_normalize hname).resolve_left List.not_mem_nil
  refine ⟨⟨hsolid, hdown, ?_⟩, hall name hmem⟩
  -- Zero characters are looked for in the whole text, and the name is a part of it.
  rw [hasZero, List.contains_eq_mem, decide_eq_false_iff_not] at hzero ⊢
  intro hin
  have hrender : '\x00' ∈ (render (normalize [] all)).toList := by
    rw [toList_render]
    exact List.mem_cons_of_mem _ (mem_intercalate (List.mem_map_of_mem hname) hin)
  rcases hcases with hcases | hcases
  · exact hzero (hcases ▸ hrender)
  · rw [hcases, String.toList_append] at hzero
    exact hzero (List.mem_append_right _ hrender)

theorem resolveFrom_eq_ok {files : FileSystem} {start : Location} {names : List String}
    {resolved : String} (h : files.resolveFrom start names = .ok resolved) :
    (∃ place, Arrives files start names place ∧ resolved = render place) ∨
      ∃ link rest, files.follow ⟨[], []⟩ start (names.map .enter) = .loop link rest ∧
        resolved = afterLoop link rest ∧ hasZero resolved = false := by
  rw [resolveFrom] at h
  cases hfollow : files.follow ⟨[], []⟩ start (names.map .enter) with
  | zeroCharacter =>
    rw [hfollow] at h
    cases h
  | place location =>
    rw [hfollow] at h
    cases h
    exact .inl ⟨location, follow_eq_place_iff.1 hfollow, rfl⟩
  | loop link rest =>
    simp only [hfollow] at h
    split_ifs at h with hzero
    refine .inr ⟨link, rest, rfl, ?_⟩
    split at h
    · cases h
    · cases h
      exact ⟨rfl, by simpa using hzero⟩

/-- Where the names of a path are followed from. -/
def origin (current : Location) (base : Option String) (path : String) : Location :=
  if isAbsolute path || isAbsolute (base.getD "") then [] else current

/-- The names of a path, after those of the directory that it is taken from. -/
def fullNames (base : Option String) (path : String) : List String :=
  if isAbsolute path then names path else names (base.getD "") ++ names path

/-- On the way along a path a link is met again before its end. -/
def MeetsAgain (files : FileSystem) (current : Location) (base : Option String) (path : String) :
    Prop :=
  ∃ link rest, files.follow ⟨[], []⟩ (origin current base path)
    ((fullNames base path).map .enter) = .loop link rest

theorem resolve_eq_resolveFrom (files : FileSystem) (current : Location) (base : Option String)
    (path : String) : files.resolve current base path =
      files.resolveFrom (origin current base path) (fullNames base path) := by
  rw [resolve, origin, fullNames]
  cases isAbsolute path <;> simp

theorem slashFree_fullNames (base : Option String) (path : String) :
    SlashFree (fullNames base path) := by
  rw [fullNames]
  split_ifs
  · exact slashFree_names path
  · exact (slashFree_names _).append (slashFree_names path)

section Resolved

variable {files : FileSystem} {current place : Location} {base : Option String}
  {path resolved : String}

theorem names_render (h : ∀ name ∈ place, ProperName name) : names (render place) = place := by
  by_cases hroot : place = []
  · subst hroot
    decide
  · rw [names, rawNames_render hroot fun name hname => (h name hname).slashFree,
      List.filter_cons_of_neg (by decide), List.filter_eq_self]
    intro name hname
    rw [(h name hname).solid]
    rfl

/-- The text of a location without links is resolved to itself, from wherever. -/
theorem Clear.resolve_render (h : Clear files place) (current : Location) (base : Option String) :
    files.resolve current base (render place) = .ok (render place) := by
  have harrives : Arrives files [] place place := Clear.arrives (by rwa [List.nil_append])
  rw [resolve, if_pos (isAbsolute_render place), names_render h.proper, resolveFrom,
    follow_eq_place_iff.2 harrives]

theorem clear_origin (h : Clear files current) : Clear files (origin current base path) := by
  rw [origin]
  split_ifs
  · exact clear_nil files
  · exact h

/-- What a path is resolved to is the text of the location that its names lead to, and there is no
link on the way to that, unless a link is met again. -/
theorem arrives_of_resolve (hcurrent : Clear files current)
    (h : files.resolve current base path = .ok resolved)
    (hloop : ¬ MeetsAgain files current base path) :
    ∃ place, Arrives files (origin current base path) (fullNames base path) place ∧
      Clear files place ∧ resolved = render place := by
  rw [resolve_eq_resolveFrom] at h
  rcases resolveFrom_eq_ok h with ⟨place, ⟨depth, harrives⟩, rfl⟩ | ⟨link, rest, hfollow, -⟩
  · have hclear := harrives.clear (slashFree_fullNames base path) (clear_origin hcurrent)
    exact ⟨place, ⟨depth, harrives⟩, hclear, rfl⟩
  · exact absurd ⟨link, rest, hfollow⟩ hloop

/-- What a path is resolved to has proper names, also if a link is met again. -/
theorem exists_render_of_meetsAgain (hcurrent : Clear files current)
    (h : files.resolve current base path = .ok resolved)
    (hloop : MeetsAgain files current base path) :
    ∃ place, (∀ name ∈ place, ProperName name) ∧
      (resolved = render place ∨ resolved = "/" ++ render place) := by
  obtain ⟨link, rest, hfollow⟩ := hloop
  rw [resolve_eq_resolveFrom] at h
  rcases resolveFrom_eq_ok h with ⟨place, harrives, -⟩ | ⟨link', rest', hfollow', rfl, hzero⟩
  · cases hfollow.symm.trans (follow_eq_place_iff.2 harrives)
  · have horigin : SlashFree (origin current base path) := fun name hname =>
      ((clear_origin hcurrent).proper name hname).slashFree
    obtain ⟨hlink, hrest⟩ := slashFree_of_loop (by simp) horigin
      (by simpa using slashFree_fullNames base path) hfollow'
    exact exists_render_of_afterLoop hlink hrest hzero

/-- A link whose target starts with its own name is met again at once. -/
theorem resolve_of_selfLink {name target : String} {rest : List String}
    (hname : IsName name) (hnames : fullNames none name = [name])
    (hlink : files.link? ([] ++ [name]) = some target) (htarget : rawNames target = name :: rest)
    (hpath : afterLoop [name] (rest.map .enter ++ [.settle [name]]) = path)
    (hzero : hasZero path = false) (hfind : files.find [] path = .error .noEntry) :
    files.resolve [] none name = .ok path := by
  have hvoid : ¬ isVoid name = true := by simp [hname.solid]
  have hup : ¬ (name == "..") = true := by simp [hname.down]
  have hclean : ¬ hasZero name = true := by simp [hname.zeroFree]
  have hfollow : files.follow ⟨[], []⟩ [] [.enter name] =
      .loop [name] (rest.map .enter ++ [.settle [name]]) := by
    rw [follow_enter_of_link hvoid hup hclean hlink rfl (by simp), htarget, ite_self]
    exact follow_enter_of_visited hvoid hup hclean hlink rfl (by simp)
  have horigin : origin [] none name = [] := ite_self _
  simp only [resolve_eq_resolveFrom, resolveFrom, hnames, horigin, List.map_cons, List.map_nil,
    hfollow, hpath, hzero, hfind]
  rfl

end Resolved

end DecoratorVeil.FileSystem
