import ServiceBroker.Json.Printer
import ServiceBroker.Json.Reader

/-! Written values differ in their blanks only. A layout says which blanks stand before the items
and members of a value and before the bracket that closes them; the compact form and the indented
form are two layouts. -/

namespace ServiceBroker.Json

/-- The text holds nothing but blanks. -/
def Blank (text : List Char) : Prop :=
  ∀ c ∈ text, Reader.isSpace c = true

/-- The blanks in a written value. -/
structure Layout where
  /-- What stands before an item or member, and before the bracket that closes them, by how deep it
  stands. -/
  line : Nat → List Char
  /-- What stands between a colon and its value. -/
  gap : List Char
  blank_line : ∀ level, Blank (line level)
  blank_gap : Blank gap

namespace Layout

/-- No blanks at all. -/
def tight : Layout where
  line _ := []
  gap := []
  blank_line _ := by simp [Blank]
  blank_gap := by simp [Blank]

/-- Each item and member on a line of its own. -/
def wide : Layout where
  line := newLine
  gap := [' ']
  blank_line level := by simp [Blank, newLine, Reader.isSpace]
  blank_gap := by simp [Blank, Reader.isSpace]

end Layout

mutual

/-- The form in a layout of a value that stands `level` deep. -/
def written (layout : Layout) (level : Nat) : Json → List Char
  | .null => ['n', 'u', 'l', 'l']
  | .bool true => ['t', 'r', 'u', 'e']
  | .bool false => ['f', 'a', 'l', 's', 'e']
  | .number n => n.text
  | .string s => stringText s
  | .array [] => ['[', ']']
  | .array (item :: items) =>
    '[' :: writtenItems layout (level + 1) (item :: items) ++ (layout.line level ++ [']'])
  | .object [] => ['\x7b', '\x7d']
  | .object (member :: members) =>
    '\x7b' :: writtenMembers layout (level + 1) (member :: members) ++
      (layout.line level ++ ['\x7d'])

/-- Items with commas between them. -/
def writtenItems (layout : Layout) (level : Nat) : List Json → List Char
  | [] => []
  | [item] => layout.line level ++ written layout level item
  | item :: items =>
    layout.line level ++ written layout level item ++ ',' :: writtenItems layout level items

/-- Members with commas between them. -/
def writtenMembers (layout : Layout) (level : Nat) : List (String × Json) → List Char
  | [] => []
  | [(key, value)] =>
    layout.line level ++ stringText key ++ ':' :: (layout.gap ++ written layout level value)
  | (key, value) :: members =>
    layout.line level ++ stringText key ++ ':' :: (layout.gap ++ written layout level value) ++
      ',' :: writtenMembers layout level members

end

mutual

/-- The compact form has no blanks. -/
theorem written_tight (level : Nat) : ∀ value : Json, value.written .tight level = value.compact
  | .null => rfl
  | .bool true => rfl
  | .bool false => rfl
  | .number _ => rfl
  | .string _ => rfl
  | .array [] => rfl
  | .array (item :: items) => by
      rw [written, compact, writtenItems_tight]
      rfl
  | .object [] => rfl
  | .object (member :: members) => by
      rw [written, compact, writtenMembers_tight]
      rfl

theorem writtenItems_tight (level : Nat) :
    ∀ items : List Json, writtenItems .tight level items = compactItems items
  | [] => rfl
  | [item] => by
      rw [writtenItems, compactItems, written_tight]
      rfl
  | item :: next :: items => by
      rw [writtenItems, compactItems, written_tight, writtenItems_tight] <;> simp [Layout.tight]

theorem writtenMembers_tight (level : Nat) :
    ∀ members : List (String × Json), writtenMembers .tight level members = compactMembers members
  | [] => rfl
  | [(key, value)] => by
      rw [writtenMembers, compactMembers, written_tight]
      rfl
  | (key, value) :: next :: members => by
      rw [writtenMembers, compactMembers, written_tight, writtenMembers_tight] <;>
        simp [Layout.tight]

end

mutual

/-- The indented form has one item or member a line. -/
theorem written_wide : ∀ (level : Nat) (value : Json),
    value.written .wide level = value.indented level
  | _, .null => rfl
  | _, .bool true => rfl
  | _, .bool false => rfl
  | _, .number _ => rfl
  | _, .string _ => rfl
  | _, .array [] => rfl
  | level, .array (item :: items) => by
      rw [written, indented, writtenItems_wide] <;> simp [Layout.wide]
  | _, .object [] => rfl
  | level, .object (member :: members) => by
      rw [written, indented, writtenMembers_wide] <;> simp [Layout.wide]

theorem writtenItems_wide : ∀ (level : Nat) (items : List Json),
    writtenItems .wide level items = indentedItems level items
  | _, [] => rfl
  | level, [item] => by
      rw [writtenItems, indentedItems, written_wide]
      rfl
  | level, item :: next :: items => by
      rw [writtenItems, indentedItems, written_wide, writtenItems_wide] <;> simp [Layout.wide]

theorem writtenMembers_wide : ∀ (level : Nat) (members : List (String × Json)),
    writtenMembers .wide level members = indentedMembers level members
  | _, [] => rfl
  | level, [(key, value)] => by
      rw [writtenMembers, indentedMembers, written_wide]
      simp [Layout.wide]
  | level, (key, value) :: next :: members => by
      rw [writtenMembers, indentedMembers, written_wide, writtenMembers_wide] <;>
        simp [Layout.wide]

end

end ServiceBroker.Json
