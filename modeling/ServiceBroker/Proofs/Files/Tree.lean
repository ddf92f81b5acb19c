import ServiceBroker.Files.Tree
import ServiceBroker.Proofs.Files.Path

/-! Where paths lead in a tree of folders. The folder that a path leads to depends on the parts that
the path names and on the folder where it begins; every beginning of the parts leads to a folder as
well. -/

namespace ServiceBroker

namespace Path

/-- The names of the folder that a part leads to, from the folder that `here` leads to. -/
def enter (here : List String) (part : String) : List String :=
  if part = ".." then here.dropLast else here ++ [part]

/-- The names of the folder that parts lead to. -/
def walk (here : List String) (names : List String) : List String :=
  names.foldl enter here

/-- The parts that a path names. -/
def named (path : String) : List String :=
  (parts path.toList).map String.ofList

/-- The folder where a path begins that is read in the folder `here`. -/
def origin (here : List String) (path : String) : List String :=
  if isRooted path.toList then [] else here

/-- Without two dots the parts are the names. -/
theorem walk_of_not_mem {names : List String} (h : ".." ∉ names) (here : List String) :
    walk here names = here ++ names := by
  induction names generalizing here with
  | nil => simp [walk]
  | cons part names ih =>
      obtain ⟨hPart, hNames⟩ := List.ne_and_not_mem_of_not_mem_cons h
      change walk (enter here part) names = _
      rw [enter, if_neg (Ne.symm hPart), ih hNames, List.append_assoc, List.singleton_append]

end Path

namespace FileTree

open ServiceBroker.Path

variable {tree : FileTree} {here found : List String} {part name : String}
  {names more : List String}

/-- The folder that parts lead to. -/
def reach? (tree : FileTree) (here : List String) (names : List String) : Option (List String) :=
  (tree.follow? here names).filter fun found => isFolder (tree.find? found)

/-- The folder that a path leads to. The empty path stands for the folder in which it is read. -/
def folderAt? (tree : FileTree) (here : List String) (path : String) : Option (List String) :=
  (if path = "" then some here else tree.resolve? here path).filter fun found =>
    isFolder (tree.find? found)

/-- A part that counts is entered from a folder. -/
theorem follow?_cons (h : counts part.toList = true) : tree.follow? here (part :: names) =
    if isFolder (tree.find? here) then tree.follow? (enter here part) names else none := by
  have hEmpty : part ≠ "" := by
    rintro rfl
    simp [counts] at h
  have hDot : part ≠ "." := by
    rintro rfl
    simp [counts] at h
  rw [follow?, enter]
  simp only [hEmpty, hDot, or_self, if_false]
  split
  · split <;> rfl
  · rfl

/-- A part that does not count leads to where it stands. -/
theorem follow?_cons_of_not (h : counts part.toList = false) :
    tree.follow? here (part :: names) =
      if isFolder (tree.find? here) then tree.follow? here names else none := by
  have hStays : part = "" ∨ part = "." := by
    simp only [counts, Bool.and_eq_false_iff, bne_eq_false_iff_eq] at h
    exact h.imp String.toList_eq_nil_iff.mp fun hDot => String.toList_injective hDot
  rw [follow?]
  simp only [hStays, if_true]

theorem follow?_append : tree.follow? here (names ++ more) =
    (tree.follow? here names).bind fun found => tree.follow? found more := by
  induction names generalizing here with
  | nil => rfl
  | cons part names ih =>
      rw [List.cons_append]
      cases hCounts : counts part.toList with
      | true =>
          rw [follow?_cons hCounts, follow?_cons hCounts, ih]
          split <;> rfl
      | false =>
          rw [follow?_cons_of_not hCounts, follow?_cons_of_not hCounts, ih]
          split <;> rfl

@[simp]
theorem reach?_nil :
    tree.reach? here [] = if isFolder (tree.find? here) then some here else none := by
  simp only [reach?, follow?, Option.filter_some]

/-- Whoever gets anywhere begins in a folder. -/
theorem isFolder_of_follow? (h : tree.follow? here (part :: names) = some found) :
    isFolder (tree.find? here) = true := by
  rw [follow?] at h
  split at h
  · assumption
  · cases h

theorem reach?_cons (h : counts part.toList = true) : tree.reach? here (part :: names) =
    if isFolder (tree.find? here) then tree.reach? (enter here part) names else none := by
  rw [reach?, follow?_cons h]
  split <;> rfl

/-- One leads to a folder by way of folders. -/
theorem reach?_append : tree.reach? here (names ++ more) =
    (tree.reach? here names).bind fun found => tree.reach? found more := by
  rw [reach?, follow?_append]
  cases hFirst : tree.follow? here names with
  | none => simp [reach?, hFirst]
  | some found =>
      simp only [reach?, hFirst, Option.bind_some, Option.filter_some]
      by_cases hFolder : isFolder (tree.find? found) = true
      · simp [hFolder]
      · cases more with
        | nil => simp [follow?, hFolder]
        | cons part more =>
            rw [if_neg hFolder, Option.bind_none, Option.filter_eq_none_iff]
            intro other hOther
            exact (hFolder (isFolder_of_follow? hOther)).elim

/-- Parts that do not count make no difference to the folder that is reached. -/
theorem reach?_filter (names : List String) (here : List String) :
    tree.reach? here names = tree.reach? here (names.filter fun part => counts part.toList) := by
  induction names generalizing here with
  | nil => rfl
  | cons part names ih =>
      cases hCounts : counts part.toList with
      | true =>
          rw [List.filter_cons_of_pos (by simpa using hCounts), reach?_cons hCounts,
            reach?_cons hCounts, ih]
      | false =>
          have hStays : tree.reach? here (part :: names) =
              if isFolder (tree.find? here) then tree.reach? here names else none := by
            rw [reach?, follow?_cons_of_not hCounts]
            split <;> rfl
          rw [List.filter_cons_of_neg (by simp [hCounts]), hStays, ← ih]
          split
          · rfl
          · next hNone =>
              have hSelf : tree.reach? here ([] ++ names) =
                  (tree.reach? here []).bind fun found => tree.reach? found names := reach?_append
              rw [reach?_nil, if_neg hNone] at hSelf
              exact hSelf.symm

/-- Parts that lead to a folder lead to where their text says. -/
theorem eq_walk_of_reach? (counting : ∀ part ∈ names, counts part.toList = true)
    (h : tree.reach? here names = some found) : found = walk here names := by
  induction names generalizing here with
  | nil =>
      rw [reach?_nil] at h
      split at h
      · exact (Option.some.inj h).symm
      · cases h
  | cons part names ih =>
      obtain ⟨hPart, hNames⟩ := List.forall_mem_cons.mp counting
      rw [reach?_cons hPart] at h
      split at h
      · exact ih hNames h
      · cases h

/-- Every beginning of parts that lead to a folder leads to a folder. -/
theorem reach?_of_prefix (counting : ∀ part ∈ names, counts part.toList = true)
    (h : tree.reach? here names = some found) (before : more <+: names) :
    tree.reach? here more = some (walk here more) := by
  obtain ⟨rest, rfl⟩ := before
  rw [reach?_append] at h
  obtain ⟨between, hBetween, -⟩ := Option.bind_eq_some_iff.mp h
  rw [hBetween, eq_walk_of_reach? (fun part hPart => counting part (by simp [hPart])) hBetween]

/-! ### Paths -/

theorem counts_of_mem_named {path : String} (h : part ∈ named path) :
    counts part.toList = true := by
  obtain ⟨chars, hChars, rfl⟩ := List.mem_map.mp h
  rw [String.toList_ofList]
  exact (List.mem_filter.mp hChars).2

/-- A path leads to where its pieces lead from where it begins. -/
theorem resolve?_eq {path : String} (h : path ≠ "") : tree.resolve? here path =
    tree.follow? (origin here path) ((Text.splitAt '/' path.toList).map String.ofList) := by
  rw [resolve?, origin]
  split
  · next hNil => exact (h (String.toList_eq_nil_iff.mp hNil)).elim
  · next rest hSlash =>
      obtain ⟨piece, pieces, hPieces⟩ :
          ∃ piece pieces, Text.splitAt '/' rest = piece :: pieces := by
        rcases Text.splitAt_cases '/' rest with ⟨-, hOne⟩ | ⟨first, later, -, -, hMore⟩
        · exact ⟨_, _, hOne⟩
        · exact ⟨_, _, hMore⟩
      have hEmpty : counts (String.ofList []).toList = false := rfl
      have hRooted : isRooted ('/' :: rest) = true := rfl
      rw [hSlash, hRooted, if_pos rfl, Text.splitAt, if_pos rfl, List.map_cons,
        follow?_cons_of_not hEmpty, hPieces, List.map_cons]
      split
      · rfl
      · next hNone =>
          refine Option.eq_none_iff_forall_ne_some.mpr fun found hFound => ?_
          exact hNone (isFolder_of_follow? hFound)
  · next chars notNil notSlash =>
      rw [isRooted_eq_false notSlash, if_neg Bool.false_ne_true]

theorem filter_pieces (path : List Char) :
    ((Text.splitAt '/' path).map String.ofList).filter (fun part => counts part.toList) =
      (parts path).map String.ofList := by
  rw [List.filter_map, parts]
  congr 1
  exact List.filter_congr fun piece _ => by simp

/-- The folder that a path leads to is reached by the parts that it names. -/
theorem folderAt?_eq (tree : FileTree) (here : List String) (path : String) :
    tree.folderAt? here path = tree.reach? (origin here path) (named path) := by
  by_cases hPath : path = ""
  · subst hPath
    rfl
  · rw [folderAt?, if_neg hPath, resolve?_eq hPath, named, ← filter_pieces, ← reach?_filter, reach?]

/-- What is in a folder is found behind the path of the folder. -/
theorem resolve?_join {path : String} (single : '/' ∉ name.toList)
    (hCounts : counts name.toList = true) (hUp : name ≠ "..") :
    tree.resolve? here (join path name) =
      (tree.folderAt? here path).map fun folder => folder ++ [name] := by
  have hName : name ≠ "" := by
    rintro rfl
    simp [counts] at hCounts
  have hLast (folder : List String) : tree.follow? folder [name] =
      if isFolder (tree.find? folder) then some (folder ++ [name]) else none := by
    rw [follow?_cons hCounts, enter, if_neg hUp]
    rfl
  -- Whatever stands before the name leads to a folder or to nothing at all.
  have hBehind (start : List String) (pieces : List String) :
      tree.follow? start (pieces ++ [name]) =
        (tree.reach? start (pieces.filter fun part => counts part.toList)).map fun folder =>
          folder ++ [name] := by
    rw [follow?_append, ← reach?_filter, reach?]
    cases tree.follow? start pieces with
    | none => rfl
    | some folder =>
        rw [Option.bind_some, hLast, Option.filter_some]
        split <;> rfl
  have hWhole : Text.splitAt '/' name.toList = [name.toList] := Text.splitAt_of_not_mem single
  rw [folderAt?_eq]
  have hCases : (path = "" ∧ join path name = name) ∨ _ := join_cases single
  rcases hCases with ⟨rfl, hJoined⟩ | ⟨front, hJoined, hParts, hRooted⟩
  · have hRooted : isRooted name.toList = false :=
      isRooted_eq_false fun rest h => single (by simp [h])
    rw [hJoined, resolve?_eq hName, hWhole, origin, hRooted, List.map_singleton,
      String.ofList_toList]
    exact hBehind here []
  · have hNonempty : join path name ≠ "" := by
      intro hEmpty
      simp [hEmpty] at hJoined
    have hOrigin : origin here (join path name) = origin here path := by
      rw [origin, hRooted, origin]
    rw [resolve?_eq hNonempty, hOrigin, hJoined, Text.splitAt_append_cons, hWhole, List.map_append,
      List.map_singleton, String.ofList_toList, hBehind, filter_pieces, hParts]
    rfl

/-- Something lies behind the path of a folder if it lies in the folder. -/
theorem at?_join {path : String} (single : '/' ∉ name.toList)
    (hCounts : counts name.toList = true) (hUp : name ≠ "..") :
    tree.at? here (join path name) =
      (tree.folderAt? here path).bind fun folder => tree.find? (folder ++ [name]) := by
  rw [at?, resolve?_join single hCounts hUp]
  cases tree.folderAt? here path <;> rfl

end FileTree

end ServiceBroker
