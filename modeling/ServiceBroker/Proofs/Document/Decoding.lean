import ServiceBroker.Proofs.Except
import ServiceBroker.Proofs.Json.Plain

/-! What decoders make of documents. The document that is built like a value decodes to that value
if there is room for it, and is nested too deeply otherwise. What any plain document decodes to has
no name twice, fits the room that there was, and holds no integer out of range. -/

namespace ServiceBroker

/-- A value such as can be read where so many arrays and objects may be opened. -/
structure Json.Readable (room : Nat) (value : Json) : Prop where
  depth : value.depth ≤ room
  distinct : value.Distinct
  bounded : value.Bounded

theorem Json.readable_array {room : Nat} {items : List Json}
    (h : ∀ item ∈ items, item.Readable room) : (array items).Readable (room + 1) where
  depth := depth_array_le_iff.mpr fun item hItem => (h item hItem).depth
  distinct := distinct_array_iff.mpr fun item hItem => (h item hItem).distinct
  bounded := bounded_array_iff.mpr fun item hItem => (h item hItem).bounded

theorem Json.readable_object {room : Nat} {members : List (String × Json)}
    (once : (Fields.names members).Nodup) (h : ∀ member ∈ members, member.2.Readable room) :
    (object members).Readable (room + 1) where
  depth := depth_object_le_iff.mpr fun member hMember => (h member hMember).depth
  distinct := distinct_object_iff.mpr ⟨once, fun member hMember => (h member hMember).distinct⟩
  bounded := bounded_object_iff.mpr fun member hMember => (h member hMember).bounded

theorem Json.itemsToDocuments_eq_map (items : List Json) :
    itemsToDocuments items = items.map toDocument := by
  induction items with
  | nil => rfl
  | cons item items ih => rw [itemsToDocuments, ih, List.map_cons]

theorem Json.membersToDocuments_eq_map (members : List (String × Json)) :
    membersToDocuments members =
      members.map fun member => (some member.1, member.2.toDocument) := by
  induction members with
  | nil => rfl
  | cons member members ih => rw [membersToDocuments, ih, List.map_cons]

namespace Decoder

variable {α : Type}

/-- Reads a member by its key. -/
def member (read : Document → Except DecodeError α) :
    Option String × Document → Except DecodeError (String × α)
  | (some key, document) => return (key, ← read document)
  | (none, _) => throw (.unexpected "a key")

theorem values_eq_mapM (room : Nat) (items : List Document) :
    values room items = items.mapM (value room) := by
  induction items with
  | nil => rfl
  | cons item items ih => rw [values, List.mapM_cons, ih]

theorem valueMembers_eq_mapM (room : Nat) (members : List (Option String × Document)) :
    valueMembers room members = members.mapM (member (value room)) := by
  induction members with
  | nil => rfl
  | cons head members ih =>
      obtain ⟨_ | key, document⟩ := head
      · rfl
      · rw [valueMembers, List.mapM_cons, ih]
        cases hValue : value room document <;>
          simp [member, hValue, bind, Except.bind, pure, Except.pure]

@[simp]
theorem enter_succ (room : Nat) (positional : Bool) :
    Dialect.enter { room := room + 1, positional } = .ok { room, positional } :=
  rfl

theorem list_sequence (decoder : Decoder α) (dialect : Dialect) (items : List Document) :
    list decoder dialect (.sequence items) =
      dialect.enter >>= fun inner => items.mapM (decoder inner) :=
  rfl

theorem fields_mapping (decoder : Decoder α) (dialect : Dialect)
    (members : List (Option String × Document)) :
    fields decoder dialect (.mapping members) =
      dialect.enter >>= fun inner => Fields.ofPairs <$> members.mapM (member (decoder inner)) := by
  rw [fields]
  congr 1
  funext inner
  have hPairs (read : Option String × Document → Except DecodeError (String × α))
      (h : ∀ entry, read entry = member (decoder inner) entry) :
      (members.mapM read >>= fun pairs => pure (Fields.ofPairs pairs)) =
        Fields.ofPairs <$> members.mapM (member (decoder inner)) := by
    rw [funext h]
    rfl
  refine hPairs _ fun entry => ?_
  obtain ⟨_ | key, document⟩ := entry <;> rfl

section Written

variable (decoder : Decoder α) (encode : α → Json) (fits : α → Prop) [DecidablePred fits]
  (room : Nat)

/-- Members that were written are read each by itself. -/
theorem mapM_member {read : Document → Except DecodeError α} (document : α → Document)
    {written : Fields α} (h : ∀ field ∈ written,
      read (document field.2) = if fits field.2 then .ok field.2 else .error .tooDeep) :
    (written.map fun field => (some field.1, document field.2)).mapM (member read) =
      if ∀ field ∈ written, fits field.2 then .ok written else .error .tooDeep := by
  have hEach : ∀ field ∈ written, member read (some field.1, document field.2) =
      if fits field.2 then .ok (id field) else .error .tooDeep := by
    intro field hField
    rw [member, h field hField]
    split <;> rfl
  rw [mapM_map_eq_ite _ id (fun field : String × α => fits field.2) hEach, List.map_id]

/-- A value is read if there is room for all that is open in it at once. -/
theorem value_toDocument {v : Json} (distinct : v.Distinct) (room : Nat) :
    value room v.toDocument = if v.depth ≤ room then .ok v else .error .tooDeep := by
  induction v using Json.inductionOn generalizing room with
  | atom v atom =>
      rw [Json.depth_of_isAtom atom, if_pos (Nat.zero_le room)]
      cases v with
      | array | object => exact atom.elim
      | number n => cases n <;> rfl
      | null | bool | string => rfl
  | array items ih =>
      rw [Json.distinct_array_iff] at distinct
      cases room with
      | zero => rfl
      | succ room =>
          have hItems := mapM_map_eq_ite Json.toDocument id (fun item => item.depth ≤ room)
            fun item hItem => ih item hItem (distinct item hItem) room
          rw [Json.toDocument, value, values_eq_mapM, Json.itemsToDocuments_eq_map, hItems,
            List.map_id]
          simp only [Json.depth_array_le_iff]
          split <;> rfl
  | object members ih =>
      obtain ⟨once, distinct⟩ := Json.distinct_object_iff.mp distinct
      cases room with
      | zero => rfl
      | succ room =>
          have hMembers := mapM_member (fun value => value.depth ≤ room) Json.toDocument
            fun member hMember => ih member hMember (distinct member hMember) room
          rw [Json.toDocument, value, valueMembers_eq_mapM, Json.membersToDocuments_eq_map,
            hMembers]
          simp only [Json.depth_object_le_iff]
          split
          · change Except.ok (Json.object (Fields.ofPairs members)) = _
            rw [Fields.ofPairs_of_nodup once]
          · rfl

theorem list_toDocument (written : List α)
    (h : ∀ x ∈ written, decoder { room, positional := true } (encode x).toDocument =
      if fits x then .ok x else .error .tooDeep) :
    list decoder { room := room + 1, positional := true }
        (Json.array (written.map encode)).toDocument =
      if ∀ x ∈ written, fits x then .ok written else .error .tooDeep := by
  have hItems := mapM_map_eq_ite (fun x => (encode x).toDocument) id fits h
  rw [List.map_id] at hItems
  rw [Json.toDocument, Json.itemsToDocuments_eq_map, List.map_map, list_sequence, enter_succ]
  exact hItems

theorem fields_toDocument {written : Fields α} (once : written.names.Nodup)
    (h : ∀ field ∈ written, decoder { room, positional := true } (encode field.2).toDocument =
      if fits field.2 then .ok field.2 else .error .tooDeep) :
    fields decoder { room := room + 1, positional := true }
        (Json.object (written.map fun field => (field.1, encode field.2))).toDocument =
      if ∀ field ∈ written, fits field.2 then .ok written else .error .tooDeep := by
  have hMembers := mapM_member fits (fun x => (encode x).toDocument) h
  rw [Json.toDocument, Json.membersToDocuments_eq_map, List.map_map, fields_mapping, enter_succ]
  change Fields.ofPairs <$> (written.map fun field =>
    (some field.1, (encode field.2).toDocument)).mapM
      (member (decoder { room, positional := true })) = _
  rw [hMembers]
  split
  · change Except.ok (Fields.ofPairs written) = _
    rw [Fields.ofPairs_of_nodup once]
  · rfl

/-- A value that is not `null` is there. -/
theorem option_of_ne_null {v : Json} (present : v ≠ .null) (dialect : Dialect) :
    option decoder dialect v.toDocument = some <$> decoder dialect v.toDocument := by
  cases v with
  | null => exact (present rfl).elim
  | number n => cases n <;> rfl
  | bool | string | array | object => rfl

/-- What may be left out is read as it was written, with `null` for nothing. -/
theorem option_toDocument {dialect : Dialect} {written : Option α}
    (h : ∀ x, written = some x →
      encode x ≠ .null ∧ decoder dialect (encode x).toDocument = .ok x) :
    option decoder dialect (written.elim .null encode).toDocument = .ok written := by
  cases written with
  | none => rfl
  | some x =>
      obtain ⟨present, hRead⟩ := h x rfl
      rw [Option.elim_some, option_of_ne_null decoder present, hRead]
      rfl

end Written

section Read

variable {decoder : Decoder α} {p : Nat → α → Prop} {dialect inner : Dialect} {document : Document}
  {room : Nat} {form : Form} {names : List String} {name : String} {found default : α}

theorem room_of_enter (h : dialect.enter = .ok inner) : inner.room = dialect.room - 1 := by
  unfold Dialect.enter at h
  split at h
  · cases h
  · cases h
    rfl

/-- A member of a plain mapping is read from one of its documents. -/
theorem exists_of_member {read : Document → Except DecodeError α}
    {members : List (Option String × Document)} {pairs : Fields α}
    (h : members.mapM (member read) = .ok pairs) :
    ∀ field ∈ pairs, ∃ source ∈ members, read source.2 = .ok field.2 := by
  intro field hField
  obtain ⟨⟨_ | key, document⟩, hSource, hRead⟩ := exists_of_mapM_eq_ok h field hField
  · cases hRead
  · obtain ⟨value, hValue, hDone⟩ := exists_of_bind_eq_ok hRead
    cases hDone
    exact ⟨_, hSource, hValue⟩

theorem value_scalar_eq_ok_iff {s : Scalar} {v : Json} :
    value room (.scalar s) = .ok v ↔ s.value = some v := by
  rw [value]
  cases s.value with
  | none => exact iff_of_false (fun h => by cases h) (fun h => by cases h)
  | some found => exact ⟨fun h => congrArg some (Except.ok.inj h), fun h => by cases h; rfl⟩

/-- A value that was read fits the room, none of its objects names a member twice, and its integers
are in range. -/
theorem readable_of_plain {v : Json} (plain : document.Plain) (h : value room document = .ok v) :
    v.Readable room := by
  induction plain generalizing room v with
  | @scalar s hPlain =>
      have hValue := value_scalar_eq_ok_iff.mp h
      have atom := hPlain.atom v hValue
      exact ⟨by simp [Json.depth_of_isAtom atom], Json.distinct_of_isAtom atom,
        Json.bounded_of_isAtom atom fun n hNumber => hPlain.keeps n (hNumber ▸ hValue)⟩
  | sequence _ ih =>
      cases room with
      | zero => cases h
      | succ room =>
          rw [value, values_eq_mapM] at h
          obtain ⟨items, hItems, rfl⟩ := exists_of_map_eq_ok h
          refine Json.readable_array fun item hItem => ?_
          obtain ⟨source, hSource, hRead⟩ := exists_of_mapM_eq_ok hItems item hItem
          exact ih source hSource hRead
  | mapping _ ih =>
      cases room with
      | zero => cases h
      | succ room =>
          rw [value, valueMembers_eq_mapM] at h
          obtain ⟨pairs, hPairs, rfl⟩ := exists_of_map_eq_ok h
          refine Json.readable_object (Fields.nodup_ofPairs pairs) fun field hField => ?_
          obtain ⟨source, hSource, hRead⟩ :=
            exists_of_member hPairs field (Fields.mem_of_mem_ofPairs hField)
          exact ih source hSource hRead

/-- Nothing but a scalar is read as `null`. -/
theorem exists_scalar_of_null (h : value room document = .ok .null) :
    ∃ s, document = .scalar s ∧ s.value = some .null := by
  cases document with
  | scalar s => exact ⟨s, rfl, value_scalar_eq_ok_iff.mp h⟩
  | sequence items =>
      cases room with
      | zero => cases h
      | succ room =>
          rw [value] at h
          obtain ⟨_, -, hNull⟩ := exists_of_map_eq_ok h
          cases hNull
  | mapping members =>
      cases room with
      | zero => cases h
      | succ room =>
          rw [value] at h
          obtain ⟨_, -, hNull⟩ := exists_of_map_eq_ok h
          cases hNull
  | unreadable => cases h

/-- What is there is read as such, and is no scalar for a value that is not there. -/
theorem present_of_option (h : option decoder dialect document = .ok (some found)) :
    decoder dialect document = .ok found ∧ ∀ s, document = .scalar s → s.absent = false := by
  have hSome {result : Except DecodeError α} (hResult : some <$> result = .ok (some found)) :
      result = .ok found := by
    obtain ⟨value, hValue, hSame⟩ := exists_of_map_eq_ok hResult
    rw [hValue, Option.some.inj hSame]
  cases document with
  | scalar s =>
      rw [option] at h
      split at h
      · cases h
      · next present =>
          refine ⟨hSome h, ?_⟩
          rintro _ ⟨⟩
          exact Bool.eq_false_iff.mpr present
  | sequence | mapping | unreadable => exact ⟨hSome h, by simp⟩

/-- What the decoder makes of a plain document has a property, given the room that there was. -/
def Yields (decoder : Decoder α) (p : Nat → α → Prop) : Prop :=
  ∀ dialect document value, document.Plain → decoder dialect document = .ok value →
    p dialect.room value

theorem yields_json : Yields json fun room v => v.depth ≤ room ∧ v.Distinct :=
  fun _ _ _ plain h =>
    have readable := readable_of_plain plain h
    ⟨readable.depth, readable.distinct⟩

/-- What is read of a value that may be left out is never `null`, which stands for nothing. -/
theorem yields_option_json :
    Yields (option json) fun room found => ∀ v, found = some v → v ≠ .null ∧ v.Readable room := by
  rintro dialect document _ plain h v rfl
  obtain ⟨hValue, hPresent⟩ := present_of_option h
  refine ⟨?_, readable_of_plain plain hValue⟩
  rintro rfl
  obtain ⟨s, rfl, hNull⟩ := exists_scalar_of_null hValue
  cases plain with
  | scalar hPlain =>
      have hAbsent := hPlain.absent hNull
      rw [hPresent s rfl] at hAbsent
      cases hAbsent

theorem Yields.list (h : Yields decoder p) :
    Yields (list decoder) fun room values => ∀ value ∈ values, p (room - 1) value := by
  intro dialect document values plain hRead value hValue
  cases plain with
  | scalar hPlain =>
      rw [Decoder.list, hPlain.empty] at hRead
      cases hRead
  | mapping => cases hRead
  | sequence hItems =>
      obtain ⟨inner, hEnter, hRead⟩ := exists_of_bind_eq_ok hRead
      obtain ⟨item, hItem, hFound⟩ := exists_of_mapM_eq_ok hRead value hValue
      rw [← room_of_enter hEnter]
      exact h inner item value (hItems item hItem) hFound

theorem Yields.fields (h : Yields decoder p) :
    Yields (fields decoder) fun room values =>
      values.names.Nodup ∧ ∀ field ∈ values, p (room - 1) field.2 := by
  intro dialect document values plain hRead
  cases plain with
  | scalar hPlain =>
      rw [Decoder.fields, hPlain.empty] at hRead
      cases hRead
  | sequence => cases hRead
  | mapping hMembers =>
      rw [fields_mapping] at hRead
      obtain ⟨inner, hEnter, hRead⟩ := exists_of_bind_eq_ok hRead
      obtain ⟨pairs, hPairs, rfl⟩ := exists_of_map_eq_ok hRead
      refine ⟨Fields.nodup_ofPairs pairs, fun field hField => ?_⟩
      obtain ⟨source, hSource, hFound⟩ :=
        exists_of_member hPairs field (Fields.mem_of_mem_ofPairs hField)
      rw [← room_of_enter hEnter]
      exact h inner source.2 field.2 (hMembers source hSource) hFound

/-- All documents of a form are plain. -/
def Form.Plain (form : Form) : Prop :=
  ∀ field ∈ form, field.2.Plain

theorem plain_known {members : List (Option String × Document)} {before : Form}
    (hMembers : ∀ member ∈ members, member.2.Plain) (hBefore : before.Plain)
    (h : known names members before = .ok form) : form.Plain := by
  induction members generalizing before with
  | nil =>
      cases h
      exact hBefore
  | cons head members ih =>
      obtain ⟨hHead, hRest⟩ := List.forall_mem_cons.mp hMembers
      obtain ⟨_ | key, document⟩ := head
      · cases h
      rw [known] at h
      split at h
      · split at h
        · cases h
        · refine ih hRest (fun field hField => ?_) h
          rcases List.mem_append.mp hField with hOld | hNew
          · exact hBefore field hOld
          · rw [List.mem_singleton.mp hNew]
            exact hHead
      · exact ih hRest hBefore h

theorem plain_zip {items : List Document} (h : ∀ item ∈ items, item.Plain) :
    Form.Plain (names.zip items) :=
  fun _ hField => h _ (List.of_mem_zip hField).2

/-- What is built from plain documents, one level deeper, is what a record yields. -/
theorem Yields.record {build : Dialect → Form → Except DecodeError α}
    (h : ∀ dialect (form : Form) value, form.Plain → build dialect form = .ok value →
      p dialect.room value) :
    Yields (record names build) fun room => p (room - 1) := by
  intro dialect document value plain hRead
  cases plain with
  | scalar hPlain =>
      rw [Decoder.record, hPlain.empty] at hRead
      cases hRead
  | mapping hMembers =>
      obtain ⟨inner, hEnter, hRead⟩ := exists_of_bind_eq_ok hRead
      obtain ⟨form, hForm, hBuild⟩ := exists_of_bind_eq_ok hRead
      rw [← room_of_enter hEnter]
      exact h inner form value (plain_known hMembers (by simp [Form.Plain]) hForm) hBuild
  | sequence hItems =>
      simp only [Decoder.record] at hRead
      split at hRead
      · obtain ⟨inner, hEnter, hRead⟩ := exists_of_bind_eq_ok hRead
        rw [← room_of_enter hEnter]
        split at hRead
        · cases hRead
        · exact h inner _ value (plain_zip hItems) hRead
      · cases hRead

theorem Yields.required (h : Yields decoder p) (plain : form.Plain)
    (hRead : required form dialect name decoder = .ok found) : p dialect.room found := by
  unfold Decoder.required at hRead
  split at hRead
  · next document hDocument =>
      exact h dialect document found (plain _ (Fields.mem_of_get? hDocument)) hRead
  · cases hRead

theorem Yields.defaulted (h : Yields decoder p) (plain : form.Plain)
    (hRead : defaulted form dialect name decoder default = .ok found) :
    found = default ∨ p dialect.room found := by
  unfold Decoder.defaulted at hRead
  split at hRead
  · next document hDocument =>
      exact .inr (h dialect document found (plain _ (Fields.mem_of_get? hDocument)) hRead)
  · cases hRead
    exact .inl rfl

/-- A text is decoded from a plain document, with room for all that JSON may nest. -/
theorem Yields.decode (h : Yields decoder p) {text : String}
    (hRead : Json.decode decoder text = .ok found) : p 127 found := by
  unfold Json.decode at hRead
  split at hRead
  · next document hDocument =>
      exact h .json document found (Json.plain_of_readDocument? hDocument) hRead
  · cases hRead

theorem Yields.decodeBytes (h : Yields decoder p) {bytes : Bytes}
    (hRead : Json.decodeBytes decoder bytes = .ok found) : p 127 found := by
  unfold Json.decodeBytes at hRead
  split at hRead
  · next document hDocument =>
      exact h .json document found (Json.plain_of_readOctets? hDocument) hRead
  · cases hRead

end Read

end Decoder

end ServiceBroker
