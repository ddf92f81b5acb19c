import ServiceBroker.Console.Desk
import ServiceBroker.Proofs.Config.Search

/-! Commands at a desk, part by part. A command that works with a configuration looks for it first,
and then goes on as if the file that it found had been named. -/

namespace ServiceBroker.Console.Desk

open Config

variable {α β : Type}

/-- The second part is done where the first part ended, unless that failed. -/
theorem work_bind (desk : Desk) (first : Work α) (next : α → Work β) :
    desk.work (first >>= next) =
      match desk.work first with
      | (.ok value, after) => after.work (next value)
      | (.error e, after) => (.error e, after) := by
  refine (Program.run_bind (I := machine) answer first.run (ExceptT.bindCont next) desk).trans ?_
  rw [work]
  rcases Program.run (I := machine) answer first.run desk with ⟨_ | _, _⟩ <;> rfl

@[simp]
theorem work_ask (desk : Desk) (request : Request) :
    desk.work (ask request) = (.ok (answer request desk).1, (answer request desk).2) :=
  rfl

/-- Looking where something lies changes nothing. -/
theorem work_findM? (desk : Desk) (paths : List String) :
    desk.work (paths.findM? fun path => ask (.present path)) =
      (.ok (paths.find? (lies desk.files desk.here)), desk) := by
  induction paths with
  | nil => rfl
  | cons path paths ih =>
      have hAnswer : answer (.present path) desk = (lies desk.files desk.here path, desk) := rfl
      rw [List.findM?, work_bind, work_ask, hAnswer, List.find?_cons]
      cases lies desk.files desk.here path with
      | true => rfl
      | false => exact ih

theorem work_configPath (desk : Desk) : desk.work (configPath none) =
    ((find (lies desk.files desk.here) ".").mapError .config, desk) := by
  rw [configPath, work_bind, work_findM?, find]
  cases (candidates ".").find? (lies desk.files desk.here) <;> rfl

/-- Without a named configuration, the work looks for one and goes on as with the one it finds. -/
def LooksFirst (work : Option String → Work α) : Prop :=
  ∀ desk : Desk, desk.work (work none) =
    match find (lies desk.files desk.here) "." with
    | .ok path => desk.work (work (some path))
    | .error e => (.error (.config e), desk)

theorem LooksFirst.bind {work : Option String → Work α} (h : LooksFirst work)
    (next : α → Work β) : LooksFirst fun named => work named >>= next := by
  intro desk
  rw [work_bind, h desk]
  cases find (lies desk.files desk.here) "." with
  | ok path => exact (work_bind desk (work (some path)) next).symm
  | error e => rfl

theorem looksFirst_setUp : LooksFirst setUp := by
  have hPath : LooksFirst configPath := by
    intro desk
    rw [work_configPath]
    cases find (lies desk.files desk.here) "." <;> rfl
  exact hPath.bind _

theorem looksFirst_start (form : ReportForm) : LooksFirst fun named => Session.start named form :=
  looksFirst_setUp.bind _

/-- The command works with a configuration. -/
def NeedsConfig : Inquiry → Prop
  | .decide _ _ => False
  | _ => True

theorem looksFirst_begin (form : ReportForm) {inquiry : Inquiry} (needs : NeedsConfig inquiry) :
    LooksFirst fun config => begin { config, form, inquiry } := by
  cases inquiry with
  | decide => exact needs.elim
  | validate showWarnings => exact (looksFirst_setUp.bind _).bind _
  | status id => exact (looksFirst_start form).bind _
  | wait id timeout => exact (looksFirst_start form).bind _
  | contents id => exact (looksFirst_start form).bind _
  | ids => exact (looksFirst_start form).bind _

/-! ### What a search comes to -/

/-- What a search comes to that begins at a path to a folder. -/
structure Searched (tree : FileTree) (here : List String) (start : String)
    (folder : List String) : Prop where
  /-- It finds the configuration file of the first folder of its trail that has one. -/
  finds : located tree here (find (lies tree here) start) =
    (trail here start).findSome? (fileIn? tree)
  /-- It fails exactly if no folder of its trail has one. -/
  fails_iff (e : ConfigError) : find (lies tree here) start = .error e ↔
    e = notFoundFrom start ∧ ∀ other ∈ trail here start, fileIn? tree other = none
  /-- If the path has no two dots, the trail goes through the folders between where the path begins
  and where it leads. -/
  mem_trail_iff : ".." ∉ Path.named start → ∀ other,
    other ∈ trail here start ↔ Path.origin here start <+: other ∧ other <+: folder
  /-- So it finds the nearest configuration file exactly if there is one on its trail or none
  above. -/
  nearest_iff : ".." ∉ Path.named start →
    (located tree here (find (lies tree here) start) = nearest? tree folder ↔
      (∃ other ∈ trail here start, fileIn? tree other ≠ none) ∨
        ∀ other ∈ above (Path.origin here start), fileIn? tree other = none)
  /-- And a path from the topmost folder on leads to the nearest configuration file in any case. -/
  nearest_of_rooted : ".." ∉ Path.named start → Path.isRooted start.toList = true →
    located tree here (find (lies tree here) start) = nearest? tree folder

theorem searched {tree : FileTree} {here folder : List String} {start : String}
    (denotes : tree.folderAt? here start = some folder) : Searched tree here start folder where
  finds := located_find denotes
  fails_iff e := by
    rw [find_eq_error_iff, located_find denotes, List.findSome?_eq_none_iff]
  mem_trail_iff straight _ := Config.mem_trail_iff denotes straight
  nearest_iff straight := located_find_eq_nearest?_iff denotes straight
  nearest_of_rooted straight rooted := by
    rw [located_find_eq_nearest?_iff denotes straight, Path.origin, if_pos rooted]
    exact .inr fun other hOther => by cases hOther

/-- The search of a command begins and ends in the working folder. -/
theorem trail_dot (here : List String) : trail here "." = [here] :=
  rfl

theorem folderAt?_dot {tree : FileTree} {here : List String}
    (working : FileTree.isFolder (tree.find? here) = true) :
    tree.folderAt? here "." = some here := by
  rw [FileTree.folderAt?_eq]
  change tree.reach? here [] = _
  rw [FileTree.reach?_nil, if_pos working]

/-- What a command without a named configuration does: it works with the configuration file of the
working folder, and fails if that has none. -/
structure Served (desk : Desk) (form : ReportForm) (inquiry : Inquiry) : Prop where
  uses (names : List String) : fileIn? desk.files desk.here = some names →
    ∃ path, desk.files.resolve? desk.here path = some names ∧
      desk.work (begin { config := none, form, inquiry }) =
        desk.work (begin { config := some path, form, inquiry })
  fails : fileIn? desk.files desk.here = none →
    desk.work (begin { config := none, form, inquiry }) =
      (.error (.config (notFoundFrom ".")), desk)
  /-- This is the nearest configuration file unless the only ones are above the working folder. -/
  nearest_iff : fileIn? desk.files desk.here = nearest? desk.files desk.here ↔
    fileIn? desk.files desk.here ≠ none ∨
      ∀ other ∈ above desk.here, fileIn? desk.files other = none

theorem served (desk : Desk) (form : ReportForm) {inquiry : Inquiry}
    (working : FileTree.isFolder (desk.files.find? desk.here) = true)
    (needs : NeedsConfig inquiry) : Served desk form inquiry := by
  have hSearched := searched (folderAt?_dot working)
  have hFinds : located desk.files desk.here (find (lies desk.files desk.here) ".") =
      fileIn? desk.files desk.here := by
    rw [hSearched.finds, trail_dot, List.findSome?_cons, List.findSome?_nil]
    cases fileIn? desk.files desk.here <;> rfl
  have hBegin := looksFirst_begin form needs desk
  have hNearest := hSearched.nearest_iff (by decide)
  have hOrigin : Path.origin desk.here "." = desk.here := rfl
  rw [hFinds, trail_dot, hOrigin] at hNearest
  refine ⟨fun names hNames => ?_, fun hNone => ?_, ?_⟩
  · rw [hNames] at hFinds
    cases hFound : find (lies desk.files desk.here) "." with
    | error e =>
        rw [hFound] at hFinds
        cases hFinds
    | ok path =>
        rw [hFound] at hFinds hBegin
        exact ⟨path, hFinds, hBegin⟩
  · rw [hNone] at hFinds
    have hFails := find_eq_error_iff.mpr ⟨rfl, hFinds⟩
    rw [hFails] at hBegin
    exact hBegin
  · simpa using hNearest

/-- For every tree of folders, every working folder and every path to a folder: the search goes
through the folders that the beginnings of the path lead to, and finds the configuration file of
the first of them that has one. This is the nearest one at or above the folder if the path goes
down from the topmost folder; a path without two dots that begins in the working folder misses it
exactly if all of them are above that. A command searches from the working folder. -/
theorem search_follows_path (desk : Desk) {start : String} {folder : List String}
    (working : FileTree.isFolder (desk.files.find? desk.here) = true)
    (denotes : desk.files.folderAt? desk.here start = some folder) :
    Searched desk.files desk.here start folder ∧
      ∀ form inquiry, NeedsConfig inquiry → Served desk form inquiry :=
  ⟨searched denotes, fun form _ needs => served desk form working needs⟩

theorem search_follows_path_below :
    let desk : Desk := {
      files := .folder [("a", .folder [("tfbroker.yaml", .file []), ("b", .folder [])])]
      here := ["a"] }
    FileTree.isFolder (desk.files.find? desk.here) = true ∧
      desk.files.folderAt? desk.here "./b" = some ["a", "b"] ∧
      Searched desk.files desk.here "./b" ["a", "b"] ∧
      ∀ form inquiry, NeedsConfig inquiry → Served desk form inquiry := by
  intro desk
  have hWorking : FileTree.isFolder (desk.files.find? desk.here) = true := by
    simp [desk, FileTree.find?, FileTree.isFolder]
  have hDenotes : desk.files.folderAt? desk.here "./b" = some ["a", "b"] := by
    rw [FileTree.folderAt?_eq]
    change desk.files.reach? ["a"] ["b"] = _
    simp [desk, FileTree.reach?, FileTree.follow?, FileTree.find?, FileTree.isFolder, List.lookup_cons]
  exact ⟨hWorking, hDenotes, search_follows_path desk hWorking hDenotes⟩

/-- In a folder below the only configuration file a command finds none; and a path that leads back
to the topmost folder leads a search to a file below that. -/
theorem file_above_missed :
    let desk : Desk := {
      files := .folder [("tfbroker.yaml", .file []), ("sub", .folder [])]
      here := ["sub"] }
    let tree : FileTree := .folder [("a", .folder [("tfbroker.yaml", .file [])])]
    (FileTree.isFolder (desk.files.find? desk.here) = true ∧
        nearest? desk.files desk.here = some ["tfbroker.yaml"] ∧
        (desk.work (begin { config := none, form := .text, inquiry := .ids })).1 =
          .error (.config (notFoundFrom "."))) ∧
      tree.folderAt? [] "/a/.." = some [] ∧ nearest? tree [] = none ∧
        located tree [] (find (lies tree []) "/a/..") = some ["a", "tfbroker.yaml"] := by
  intro desk tree
  have hWorking : FileTree.isFolder (desk.files.find? desk.here) = true := by
    simp [desk, FileTree.find?, FileTree.isFolder, List.lookup_cons]
  have hNone : fileIn? desk.files desk.here = none := by
    simp [desk, fileIn?, fileNames, FileTree.find?, List.lookup_cons]
  have hBack : tree.folderAt? [] "/a/.." = some [] := by
    rw [FileTree.folderAt?_eq]
    change tree.reach? [] ["a", ".."] = _
    simp [tree, FileTree.reach?, FileTree.follow?, FileTree.find?, FileTree.isFolder]
  have hTrail : trail [] "/a/.." = [[], ["a"], []] := by decide
  refine ⟨⟨hWorking, ?_, ?_⟩, hBack, ?_, ?_⟩
  · simp [desk, nearest?, fileIn?, fileNames, FileTree.find?, List.lookup_cons]
  · have hServed : Served desk .text .ids := served desk .text hWorking trivial
    rw [hServed.fails hNone]
  · simp [tree, nearest?, fileIn?, fileNames, FileTree.find?, List.lookup_cons]
  · rw [located_find hBack, hTrail]
    simp [tree, fileIn?, fileNames, FileTree.find?, List.lookup_cons]

end ServiceBroker.Console.Desk
