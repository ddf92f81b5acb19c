/-!
Paths as texts. The parts of a path stand between slashes; empty parts and single dots do not
count, except that a path may begin with a dot for the working directory. Two dots are a part like
any other: what they lead to depends on the folders, and not on the text.
-/

namespace ServiceBroker.Path

/-- What stands before the parts of a path: a slash, a single dot, or nothing. -/
def lead : List Char → List Char
  | '/' :: _ => ['/']
  | ['.'] => ['.']
  | '.' :: '/' :: _ => ['.']
  | _ => []

/-- Drops parts that do not count. The text is read from its end. -/
def dropEmptyParts : List Char → List Char
  | '/' :: before => dropEmptyParts before
  | '.' :: '/' :: before => dropEmptyParts before
  | ['.'] => []
  | before => before

/-- The parts that do not count take no more than what was there. -/
theorem length_dropEmptyParts_le (text : List Char) :
    (dropEmptyParts text).length ≤ text.length := by
  fun_induction dropEmptyParts text <;> simp_all <;> omega

/-- The path without its last part; nothing if there is no part to leave out. -/
def parentChars? (path : List Char) : Option (List Char) :=
  let front := lead path
  match dropEmptyParts (path.drop front.length).reverse with
  | [] => if front = ['.'] then some [] else none
  | c :: before =>
    let rest := (c :: before).dropWhile (· != '/')
    some (front ++ (dropEmptyParts rest.tail).reverse)

theorem length_dropWhile_le {α : Type} (p : α → Bool) (xs : List α) :
    (xs.dropWhile p).length ≤ xs.length :=
  (List.dropWhile_sublist p).length_le

/-- What stands before the parts is the beginning of the path. -/
theorem length_lead_le (path : List Char) : (lead path).length ≤ path.length := by
  unfold lead
  split <;> simp

/-- A path is longer than what is left without its last part. -/
theorem length_lt_of_parentChars? {path parent : List Char} (h : parentChars? path = some parent) :
    parent.length < path.length := by
  have hFront := length_lead_le path
  have hParts := length_dropEmptyParts_le (path.drop (lead path).length).reverse
  simp only [List.length_reverse, List.length_drop] at hParts
  simp only [parentChars?] at h
  split at h
  · split at h
    · next hDot =>
      cases h
      rw [hDot] at hFront
      simpa [Nat.pos_iff_ne_zero, Nat.one_le_iff_ne_zero] using hFront
    · cases h
  · next c before hRest =>
    cases h
    rw [hRest] at hParts
    have hKept := length_dropEmptyParts_le ((c :: before).dropWhile (· != '/')).tail
    have hLonger := length_dropWhile_le (· != '/') (c :: before)
    simp only [List.length_tail, List.length_cons] at hKept hParts hLonger
    simp only [List.length_append, List.length_reverse]
    have : ((c :: before).dropWhile (· != '/')).length - 1 < before.length + 1 := by omega
    omega

/-- The path itself, the path without its last part, and so on. -/
def selfAndParents (path : List Char) : List (List Char) :=
  match h : parentChars? path with
  | none => [path]
  | some parent =>
    have : parent.length < path.length := length_lt_of_parentChars? h
    path :: selfAndParents parent
termination_by path.length

/-- The path without its last part. -/
def parent? (path : String) : Option String :=
  (parentChars? path.toList).map String.ofList

/-- The path of something in a folder. A path that begins with a slash stands for itself. -/
def join (folder name : String) : String :=
  match name.toList with
  | '/' :: _ => name
  | _ =>
    match folder.toList.getLast? with
    | none => name
    | some '/' => folder ++ name
    | some _ => folder ++ "/" ++ name

/-- A path and those without its last parts, as texts. -/
def ancestors (path : String) : List String :=
  (selfAndParents path.toList).map String.ofList

end ServiceBroker.Path
