import ServiceBroker.Config.Search
import ServiceBroker.Proofs.Files.Tree

/-! The search for a configuration file against the folders that are searched. It goes by the text
of the path where it starts: it looks into the folders that the beginnings of the path lead to, and
in no other. These are the folder and all above it if the path begins at the topmost folder and has no
two dots in it; a path that begins in the working folder never leads above that. -/

namespace ServiceBroker.Config

open ServiceBroker.Path

variable {tree : FileTree} {here folder : List String} {start : String}

/-- The names that lead to the configuration file in a folder, the preferred one if there are
two. -/
def fileIn? (tree : FileTree) (folder : List String) : Option (List String) :=
  (fileNames.find? fun name => (tree.find? (folder ++ [name])).isSome).map fun name =>
    folder ++ [name]

/-- The configuration file in the nearest folder that has one, from a folder on upward. -/
def nearest? (tree : FileTree) (folder : List String) : Option (List String) :=
  folder.inits.reverse.findSome? (fileIn? tree)

/-- The folders that the beginnings of a path lead to, from the whole path on. -/
def trail (here : List String) (start : String) : List (List String) :=
  (named start).inits.reverse.map (walk (origin here start))

/-- Something lies at a path. -/
def lies (tree : FileTree) (here : List String) (path : String) : Bool :=
  (tree.at? here path).isSome

/-- Where the path leads that a search has come to. -/
def located (tree : FileTree) (here : List String) (found : Except ConfigError String) :
    Option (List String) :=
  found.toOption.bind (tree.resolve? here)

/-- The path of the configuration file that is tried successfully in one folder. -/
def tried? (tree : FileTree) (here : List String) (path : String) : Option String :=
  (fileNames.map (join path)).find? (lies tree here)

theorem resolve?_fileName {name path : String} (h : name ∈ fileNames)
    (reached : tree.folderAt? here path = some folder) :
    tree.resolve? here (join path name) = some (folder ++ [name]) ∧
      lies tree here (join path name) = (tree.find? (folder ++ [name])).isSome := by
  have hPlain : '/' ∉ name.toList ∧ counts name.toList = true ∧ name ≠ ".." := by
    simp only [fileNames, List.mem_cons, List.not_mem_nil, or_false] at h
    rcases h with rfl | rfl <;> decide
  obtain ⟨single, hCounts, hUp⟩ := hPlain
  rw [lies, FileTree.resolve?_join single hCounts hUp, FileTree.at?_join single hCounts hUp,
    reached]
  exact ⟨rfl, rfl⟩

/-- In the folder that a path leads to, the file that is tried successfully is the configuration
file of the folder. -/
theorem tried?_eq {path : String} (reached : tree.folderAt? here path = some folder) :
    tried? tree here path =
      (fileNames.find? fun name => (tree.find? (folder ++ [name])).isSome).map (join path) := by
  have hTests (name : String) (h : name ∈ fileNames) :
      lies tree here (join path name) = (tree.find? (folder ++ [name])).isSome :=
    (resolve?_fileName h reached).2
  simp only [tried?, fileNames, List.map_cons, List.map_nil, List.find?_cons, List.find?_nil,
    hTests "tfbroker.yaml" (by decide), hTests "tfbroker.yml" (by decide)]
  split
  · rfl
  · split <;> rfl

theorem located_tried? {path : String} (reached : tree.folderAt? here path = some folder) :
    (tried? tree here path).bind (tree.resolve? here) = fileIn? tree folder := by
  rw [tried?_eq reached, fileIn?]
  cases hFound : fileNames.find? fun name => (tree.find? (folder ++ [name])).isSome with
  | none => rfl
  | some name => exact (resolve?_fileName (List.mem_of_find?_eq_some hFound) reached).1

theorem tried?_eq_none_iff {path : String} (reached : tree.folderAt? here path = some folder) :
    tried? tree here path = none ↔ fileIn? tree folder = none := by
  rw [tried?_eq reached, fileIn?, Option.map_eq_none_iff, Option.map_eq_none_iff]

/-- A search tries folder after folder. -/
theorem find_eq (tree : FileTree) (here : List String) (start : String) :
    find (lies tree here) start =
      match (ancestors start).findSome? (tried? tree here) with
      | some path => .ok path
      | none => .error (notFoundFrom start) := by
  rw [find, candidates, List.find?_flatMap]
  rfl

/-- The paths of a search lead to the folders of its trail. At its end it may come to where it began
once more. -/
theorem map_folderAt?_ancestors (denotes : tree.folderAt? here start = some folder) : ∃ again,
    (ancestors start).map (tree.folderAt? here) =
      (trail here start ++ List.replicate again (origin here start)).map some := by
  obtain ⟨again, hParts⟩ := map_parts_selfAndParents start.toList
  refine ⟨again, ?_⟩
  rw [FileTree.folderAt?_eq] at denotes
  have hReach {names : List String} (before : names <+: named start) :
      tree.reach? (origin here start) names = some (walk (origin here start) names) :=
    FileTree.reach?_of_prefix (fun part hPart => FileTree.counts_of_mem_named hPart) denotes before
  have hEach : (ancestors start).map (tree.folderAt? here) =
      ((selfAndParents start.toList).map parts).map fun found =>
        tree.reach? (origin here start) (found.map String.ofList) := by
    rw [ancestors, List.map_map, List.map_map]
    refine List.map_congr_left fun chars hChars => ?_
    have hOrigin : origin here (String.ofList chars) = origin here start := by
      rw [origin, String.toList_ofList, isRooted_of_mem_selfAndParents hChars, origin]
    rw [Function.comp_apply, Function.comp_apply, FileTree.folderAt?_eq, hOrigin, named,
      String.toList_ofList]
  have hTrail : (trail here start).map some =
      (parts start.toList).inits.reverse.map fun found =>
        tree.reach? (origin here start) (found.map String.ofList) := by
    rw [trail, named, List.map_inits, ← List.map_reverse, List.map_map, List.map_map]
    refine List.map_congr_left fun found hFound => (hReach ?_).symm
    exact ((List.mem_inits _ _).mp (List.mem_reverse.mp hFound)).map _
  rw [hEach, hParts, List.map_append, List.map_append, hTrail, List.map_replicate,
    List.map_replicate]
  exact congrArg (_ ++ List.replicate again ·) (hReach List.nil_prefix)

theorem origin_mem_trail (here : List String) (start : String) :
    origin here start ∈ trail here start :=
  List.mem_map.mpr ⟨[], List.mem_reverse.mpr ((List.mem_inits _ _).mpr List.nil_prefix), rfl⟩

/-- Where paths lead to folders, the first file that is tried successfully is the first
configuration file of these folders. -/
theorem bind_findSome?_tried? {paths : List String}
    (denote : ∀ path ∈ paths, ∃ folder, tree.folderAt? here path = some folder) :
    (paths.findSome? (tried? tree here)).bind (tree.resolve? here) =
      (paths.map (tree.folderAt? here)).findSome? fun found => found.bind (fileIn? tree) := by
  induction paths with
  | nil => rfl
  | cons path paths ih =>
      obtain ⟨⟨folder, reached⟩, hRest⟩ := List.forall_mem_cons.mp denote
      have hFile := located_tried? reached
      rw [List.map_cons, List.findSome?_cons, List.findSome?_cons, reached, Option.bind_some,
        ← ih hRest]
      cases hTried : tried? tree here path with
      | none => rw [(tried?_eq_none_iff reached).mp hTried]
      | some found =>
          have hSome : fileIn? tree folder ≠ none := fun hNone => by
            cases hTried.symm.trans ((tried?_eq_none_iff reached).mpr hNone)
          obtain ⟨names, hNames⟩ := Option.ne_none_iff_exists'.mp hSome
          rw [hTried, Option.bind_some, hNames] at hFile
          rw [hNames]
          exact hFile

/-- A search finds the configuration file of the first folder of its trail that has one. -/
theorem located_find (denotes : tree.folderAt? here start = some folder) :
    located tree here (find (lies tree here) start) =
      (trail here start).findSome? (fileIn? tree) := by
  obtain ⟨again, hFolders⟩ := map_folderAt?_ancestors denotes
  have denote (path : String) (h : path ∈ ancestors start) :
      ∃ found, tree.folderAt? here path = some found := by
    have hMember := List.mem_map_of_mem (f := tree.folderAt? here) h
    rw [hFolders] at hMember
    obtain ⟨found, -, hFound⟩ := List.mem_map.mp hMember
    exact ⟨found, hFound.symm⟩
  -- Coming to the first folder once more finds nothing new.
  have hAgain : (trail here start ++ List.replicate again (origin here start)).findSome?
      (fileIn? tree) = (trail here start).findSome? (fileIn? tree) := by
    rw [List.findSome?_append]
    cases hTrail : (trail here start).findSome? (fileIn? tree) with
    | some names => rfl
    | none =>
        rw [Option.none_or, List.findSome?_eq_none_iff]
        intro found hFound
        rw [(List.mem_replicate.mp hFound).2]
        exact List.findSome?_eq_none_iff.mp hTrail _ (origin_mem_trail here start)
  calc located tree here (find (lies tree here) start)
      = ((ancestors start).findSome? (tried? tree here)).bind (tree.resolve? here) := by
        rw [find_eq, located]
        cases (ancestors start).findSome? (tried? tree here) <;> rfl
    _ = ((trail here start ++ List.replicate again (origin here start)).map some).findSome?
          fun found => found.bind (fileIn? tree) := by
        rw [bind_findSome?_tried? denote, hFolders]
    _ = (trail here start ++ List.replicate again (origin here start)).findSome?
          (fileIn? tree) := by
        rw [List.findSome?_map]
        rfl
    _ = _ := hAgain

/-- A search fails in one way, and only if it comes to nothing. -/
theorem find_eq_error_iff {e : ConfigError} : find (lies tree here) start = .error e ↔
    e = notFoundFrom start ∧ located tree here (find (lies tree here) start) = none := by
  rw [find]
  cases hFound : (candidates start).find? (lies tree here) with
  | none =>
      constructor
      · intro h
        cases h
        exact ⟨rfl, rfl⟩
      · rintro ⟨rfl, -⟩
        rfl
  | some path =>
      constructor
      · intro h
        cases h
      · rintro ⟨-, hNone⟩
        have hLies := List.find?_some hFound
        have hNowhere : tree.resolve? here path = none := hNone
        simp [lies, FileTree.at?, hNowhere] at hLies

/-! ### Without two dots -/

/-- The folders above a folder, the nearest first. -/
def above (folder : List String) : List (List String) :=
  folder.inits.reverse.tail

theorem inits_reverse_eq (folder : List String) :
    folder.inits.reverse = folder :: above folder := by
  rcases List.eq_nil_or_concat folder with rfl | ⟨names, name, rfl⟩
  · rfl
  · simp [above, List.inits_append]

theorem trail_of_not_mem (h : ".." ∉ named start) : trail here start =
    (named start).inits.reverse.map (origin here start ++ ·) := by
  refine List.map_congr_left fun names hNames => walk_of_not_mem (fun hUp => h ?_) _
  exact ((List.mem_inits _ _).mp (List.mem_reverse.mp hNames)).subset hUp

/-- Without two dots a path leads to the names that it names, from where it begins. -/
theorem eq_append_of_not_mem (denotes : tree.folderAt? here start = some folder)
    (h : ".." ∉ named start) : folder = origin here start ++ named start := by
  rw [FileTree.folderAt?_eq] at denotes
  exact (FileTree.eq_walk_of_reach? (fun part hPart => FileTree.counts_of_mem_named hPart)
    denotes).trans (walk_of_not_mem h _)

/-- Without two dots the trail goes upward from the folder, and ends where the path begins. -/
theorem inits_reverse_of_not_mem (denotes : tree.folderAt? here start = some folder)
    (h : ".." ∉ named start) :
    folder.inits.reverse = trail here start ++ above (origin here start) := by
  obtain rfl := eq_append_of_not_mem denotes h
  have hOrigin := inits_reverse_eq (origin here start)
  have hNamed : (named start).inits = [] :: (named start).inits.tail := by
    cases named start <;> rfl
  rw [trail_of_not_mem h, List.inits_append, List.reverse_append, hOrigin, hNamed]
  simp

/-- Without two dots the folders of the trail are those between where the path begins and where it
leads. -/
theorem mem_trail_iff (denotes : tree.folderAt? here start = some folder) (h : ".." ∉ named start)
    {other : List String} :
    other ∈ trail here start ↔ origin here start <+: other ∧ other <+: folder := by
  obtain rfl := eq_append_of_not_mem denotes h
  rw [trail_of_not_mem h, List.mem_map]
  constructor
  · rintro ⟨names, hNames, rfl⟩
    have hBefore := (List.mem_inits _ _).mp (List.mem_reverse.mp hNames)
    exact ⟨List.prefix_append _ _, (List.prefix_append_right_inj _).mpr hBefore⟩
  · rintro ⟨⟨names, rfl⟩, hBefore⟩
    refine ⟨names, List.mem_reverse.mpr ((List.mem_inits _ _).mpr ?_), rfl⟩
    exact (List.prefix_append_right_inj _).mp hBefore

/-- Without two dots a search finds the nearest configuration file exactly if there is one on its
trail or none above that. -/
theorem located_find_eq_nearest?_iff (denotes : tree.folderAt? here start = some folder)
    (h : ".." ∉ named start) :
    located tree here (find (lies tree here) start) = nearest? tree folder ↔
      (∃ other ∈ trail here start, fileIn? tree other ≠ none) ∨
        ∀ other ∈ above (origin here start), fileIn? tree other = none := by
  rw [located_find denotes, nearest?, inits_reverse_of_not_mem denotes h, List.findSome?_append]
  cases hTrail : (trail here start).findSome? (fileIn? tree) with
  | some names =>
      obtain ⟨other, hOther, hFile⟩ := List.exists_of_findSome?_eq_some hTrail
      exact iff_of_true rfl (.inl ⟨other, hOther, by simp [hFile]⟩)
  | none =>
      have hNone := List.findSome?_eq_none_iff.mp hTrail
      rw [Option.none_or, eq_comm, List.findSome?_eq_none_iff]
      exact ⟨.inr, fun hEither => hEither.resolve_left fun ⟨other, hOther, hSome⟩ =>
        hSome (hNone other hOther)⟩

end ServiceBroker.Config
