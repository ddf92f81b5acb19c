import ServiceBroker.Files.Folder
import ServiceBroker.Proofs.Fields

/-! What the steps of work in a folder come to where the folder is there. -/

namespace ServiceBroker.Folder

variable {found : Fields FileTree} {name source target : String} {content : Bytes}

/-- No folder has the name, so a file can be put there. -/
def Free (found : Fields FileTree) (name : String) : Prop :=
  ∀ inner, found.get? name ≠ some (.folder inner)

@[simp]
theorem answer_present (place : Place) : answer .present place = (place.isSome, place) :=
  rfl

@[simp]
theorem answer_list :
    answer .list (some (.folder found)) = (.ok found.names, some (.folder found)) :=
  rfl

@[simp]
theorem answer_contains : answer (.contains name) (some (.folder found)) =
    ((found.get? name).isSome, some (.folder found)) := by
  simp only [answer, entries]
  rfl

theorem fileIn_of_get? (h : found.get? name = some (.file content)) :
    fileIn (some (.folder found)) name = .ok content := by
  have hLookup : found.lookup name = some (.file content) := h
  simp only [fileIn, entries, pure_bind, hLookup]
  rfl

theorem answer_sync (h : found.get? name = some (.file content)) :
    answer (.sync name) (some (.folder found)) = (.ok (), some (.folder found)) := by
  rw [answer, fileIn_of_get? h]
  rfl

theorem putFile_of_free (named : isFileName name = true) (free : Free found name) :
    putFile (some (.folder found)) name content =
      (.ok (), some (.folder (found.put name (.file content)))) := by
  have hEntries : entries (some (.folder found)) = .ok found := rfl
  simp only [putFile, hEntries, named, Bool.not_true, Bool.false_eq_true, if_false]
  split
  · next inner hFolder => exact absurd hFolder (free inner)
  · rfl

theorem exists_put_of_putFile {place left : Place}
    (h : putFile place name content = (.ok (), left)) :
    ∃ found : Fields FileTree, left = some (.folder (found.put name (.file content))) := by
  unfold putFile at h
  split at h
  · cases h
  · next found hEntries =>
      split at h
      · cases h
      · split at h
        · cases h
        · exact ⟨found, (congrArg Prod.snd h).symm⟩

theorem answer_create (named : isFileName name = true) (free : Free found name) :
    answer (.create name) (some (.folder found)) =
      (.ok (), some (.folder (found.put name (.file [])))) :=
  putFile_of_free named free

theorem answer_create_of_not_isFileName (h : isFileName name = false) :
    answer (.create name) (some (.folder found)) = (.error badName, some (.folder found)) := by
  have hEntries : entries (some (.folder found)) = .ok found := rfl
  simp only [answer, putFile, hEntries, h, Bool.not_false, if_true]

/-- A file that is there is written anew. -/
theorem answer_write {old : Bytes} (named : isFileName name = true)
    (h : found.get? name = some (.file old)) :
    answer (.write name content) (some (.folder found)) =
      (.ok (), some (.folder (found.put name (.file content)))) := by
  have hFree : Free found name := by
    intro inner hFolder
    rw [h] at hFolder
    cases hFolder
  rw [answer, fileIn_of_get? h]
  exact putFile_of_free named hFree

theorem removeFile_of_get? (h : found.get? name = some (.file content)) :
    removeFile (some (.folder found)) name = (.ok (), some (.folder (found.erase name))) := by
  have hEntries : entries (some (.folder found)) = .ok found := rfl
  rw [removeFile, fileIn_of_get? h, hEntries]

theorem answer_remove (h : found.get? name = some (.file content)) :
    answer (.remove name) (some (.folder found)) = (.ok (), some (.folder (found.erase name))) :=
  removeFile_of_get? h

/-- The file is found under its new name only. -/
theorem answer_rename (named : isFileName target = true) (free : Free found target)
    (apart : target ≠ source) (h : found.get? source = some (.file content)) :
    answer (.rename source target) (some (.folder found)) =
      (.ok (), some (.folder ((found.erase source).put target (.file content)))) := by
  have hKept : (found.put target (.file content)).get? source = some (.file content) := by
    rw [Fields.get?_put_of_ne _ _ apart.symm, h]
  simp only [answer, fileIn_of_get? h, putFile_of_free named free, removeFile_of_get? hKept,
    Fields.erase_put_of_ne apart]

theorem answer_rename_of_not_isFileName (bad : isFileName target = false)
    (h : found.get? source = some (.file content)) :
    answer (.rename source target) (some (.folder found)) =
      (.error badName, some (.folder found)) := by
  have hEntries : entries (some (.folder found)) = .ok found := rfl
  simp only [answer, fileIn_of_get? h, putFile, hEntries, bad, Bool.not_false, if_true]

/-- What can be found. A folder that is not there holds nothing yet, and in a file nothing can be.
-/
def held? : Place → Option (Fields FileTree)
  | none => some []
  | some (.folder found) => some found
  | some (.file _) => none

/-- What has a name in the folder. -/
def find? (place : Place) (name : String) : Option FileTree :=
  (held? place).bind fun found => found.get? name

/-- Something can still be found or not, and so can everything without the names. -/
structure SameBut (names : String → Prop) (before after : Place) : Prop where
  held : (held? after).isSome = (held? before).isSome
  find : ∀ name, ¬names name → find? after name = find? before name

section SameBut

variable {names : String → Prop} {before after place : Place}

theorem SameBut.refl (place : Place) : SameBut names place place :=
  ⟨rfl, fun _ _ => rfl⟩

theorem SameBut.trans {later : Place} (first : SameBut names before after)
    (second : SameBut names after later) : SameBut names before later :=
  ⟨second.held.trans first.held,
    fun name h => (second.find name h).trans (first.find name h)⟩

theorem sameBut_put {other : String} {tree : FileTree} (h : names other) :
    SameBut names (some (.folder found)) (some (.folder (found.put other tree))) := by
  refine ⟨rfl, fun name hName => ?_⟩
  have hOther : name ≠ other := fun same => hName (same ▸ h)
  exact Fields.get?_put_of_ne found tree hOther

theorem sameBut_erase {other : String} (h : names other) :
    SameBut names (some (.folder found)) (some (.folder (found.erase other))) := by
  refine ⟨rfl, fun name hName => ?_⟩
  have hOther : name ≠ other := fun same => hName (same ▸ h)
  exact Fields.get?_erase_of_ne found hOther

theorem sameBut_putFile (h : names name) (place : Place) (content : Bytes) :
    SameBut names place (putFile place name content).2 := by
  rcases place with _ | content' | found
  · exact .refl _
  · exact .refl _
  · have hEntries : entries (some (.folder found)) = .ok found := rfl
    simp only [putFile, hEntries]
    split
    · exact .refl _
    · split
      · exact .refl _
      · exact sameBut_put h

theorem sameBut_removeFile (h : names name) (place : Place) :
    SameBut names place (removeFile place name).2 := by
  rcases place with _ | content' | found
  · exact .refl _
  · exact .refl _
  · have hEntries : entries (some (.folder found)) = .ok found := rfl
    simp only [removeFile, hEntries]
    cases fileIn (some (.folder found)) name with
    | error e => exact .refl _
    | ok content => exact sameBut_erase h

theorem answer_contains_eq (place : Place) (name : String) :
    answer (.contains name) place = ((find? place name).isSome, place) := by
  rcases place with _ | content | found <;> simp only [answer, entries] <;> rfl

theorem fileIn_of_not_held (h : held? place = none) : fileIn place name = .error notAFolder := by
  rcases place with _ | content | found
  · cases h
  · rfl
  · cases h

theorem fileIn_of_held (h : held? place = some found) :
    fileIn place name = fileIn (some (.folder found)) name := by
  rcases place with _ | content | inner
  · cases h
    rfl
  · cases h
  · cases h
    rfl

/-- Where something is found there is a folder. -/
theorem exists_folder_of_find? {tree : FileTree} (h : find? place name = some tree) :
    ∃ found, place = some (.folder found) ∧ Fields.get? found name = some tree := by
  obtain ⟨found, hHeld, hFound⟩ := Option.bind_eq_some_iff.mp h
  rcases place with _ | content | inner
  · cases hHeld
    cases hFound
  · cases hHeld
  · cases hHeld
    exact ⟨found, rfl, hFound⟩

theorem fileIn_of_find? (h : find? place name = some (.file content)) :
    fileIn place name = .ok content := by
  obtain ⟨found, rfl, hFound⟩ := exists_folder_of_find? h
  exact fileIn_of_get? hFound

/-- A file without the name is read as before. -/
theorem fileIn_eq_of_sameBut (same : SameBut names before after) (h : ¬names name) :
    fileIn after name = fileIn before name := by
  have hFind := same.find name h
  have hHeld := same.held
  cases hBefore : held? before with
  | none =>
      have hAfter : held? after = none := by simpa [hBefore] using hHeld
      rw [fileIn_of_not_held hBefore, fileIn_of_not_held hAfter]
  | some found =>
      rw [hBefore, Option.isSome_some, Option.isSome_iff_exists] at hHeld
      obtain ⟨changed, hAfter⟩ := hHeld
      have hLookup : changed.lookup name = found.lookup name := by
        rw [find?, find?, hBefore, hAfter] at hFind
        exact hFind
      rw [fileIn_of_held hBefore, fileIn_of_held hAfter]
      simp only [fileIn, entries, pure_bind, hLookup]

/-- The step looks at nothing but the folder itself or changes nothing but files with the names. -/
def ChangesOnly (names : String → Prop) : FolderStep → Prop
  | .present | .make | .contains _ | .read _ | .sync _ | .list => True
  | .create name | .write name _ | .remove name => names name
  | .rename source target => names source ∧ names target

/-- Everything else is found as before. -/
theorem sameBut_answer {step : FolderStep} (h : ChangesOnly names step) (place : Place) :
    SameBut names place (answer step place).2 := by
  cases step with
  | present | contains | read | sync | list => exact .refl _
  | make =>
      rcases place with _ | content | found
      · exact ⟨rfl, fun _ _ => rfl⟩
      · exact .refl _
      · exact .refl _
  | create name => exact sameBut_putFile h place []
  | write name content =>
      rw [answer]
      cases fileIn place name with
      | error e => exact .refl _
      | ok old => exact sameBut_putFile h place content
  | rename source target =>
      rw [answer]
      cases fileIn place source with
      | error e => exact .refl _
      | ok content =>
          have hPut := sameBut_putFile h.2 place content
          dsimp only
          generalize putFile place target content = result at hPut ⊢
          rcases result with ⟨_ | _, changed⟩
          · exact .refl _
          · exact hPut.trans (sameBut_removeFile h.1 changed)
  | remove name => exact sameBut_removeFile h place

end SameBut

end ServiceBroker.Folder
