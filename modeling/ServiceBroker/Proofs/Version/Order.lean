import ServiceBroker.Version.Order

/-! The order of versions is a strict order in which any two different versions can be told apart:
it is built from comparisons of numbers and of characters by taking first differences. -/

namespace ServiceBroker.Version

open Std

/-- Things compare as well as what they are compared by. -/
theorem transCmp_on {α β : Type} (cmp : β → β → Ordering) [TransCmp cmp] (f : α → β) :
    TransCmp fun a b => cmp (f a) (f b) where
  eq_swap := OrientedCmp.eq_swap
  isLE_trans := TransCmp.isLE_trans

theorem compareChars_eq : compareChars = List.compareLex (compareOn Char.toNat) := by
  funext cs ds
  induction cs generalizing ds with
  | nil => cases ds <;> rfl
  | cons c cs ih =>
      cases ds with
      | nil => rfl
      | cons d ds => rw [compareChars, ih, List.compareLex_cons_cons, compareOn]

instance : TransCmp compareChars := by
  rw [compareChars_eq]
  infer_instance

namespace Identifier

/-- Numbers by value and then by length. -/
def compareNumeric : Identifier → Identifier → Ordering :=
  compareLex (compareOn fun i => (significant i.chars).length)
    (compareLex (fun i j => compareChars (significant i.chars) (significant j.chars))
      (compareOn fun i => i.chars.length))

instance : TransCmp compareNumeric := by
  have hDigits := transCmp_on compareChars fun i : Identifier => significant i.chars
  unfold compareNumeric
  infer_instance

/-- Words by their characters. -/
def compareWords (i j : Identifier) : Ordering :=
  compareChars i.chars j.chars

instance : TransCmp compareWords :=
  transCmp_on compareChars chars

theorem compare_eq (i j : Identifier) :
    i.compare j = match i.isNumeric, j.isNumeric with
      | true, false => .lt
      | false, true => .gt
      | false, false => compareWords i j
      | true, true => compareNumeric i j :=
  rfl

instance : TransCmp Identifier.compare where
  eq_swap {i j} := by
    cases hi : i.isNumeric <;> cases hj : j.isNumeric <;> simp only [compare_eq, hi, hj]
    · exact OrientedCmp.eq_swap
    · rfl
    · rfl
    · exact OrientedCmp.eq_swap
  isLE_trans {i j k} left right := by
    cases hi : i.isNumeric <;> cases hj : j.isNumeric <;> cases hk : k.isNumeric <;>
      simp only [compare_eq, hi, hj, hk] at *
    all_goals first | exact TransCmp.isLE_trans left right | contradiction | rfl

end Identifier

theorem compareIdentifiers_eq :
    compareIdentifiers = List.compareLex Identifier.compare := by
  funext is js
  induction is generalizing js with
  | nil => cases js <;> rfl
  | cons i is ih =>
      cases js with
      | nil => rfl
      | cons j js => rw [compareIdentifiers, ih, List.compareLex_cons_cons]

instance : TransCmp compareIdentifiers := by
  rw [compareIdentifiers_eq]
  infer_instance

instance : TransCmp comparePre where
  eq_swap {is js} := by
    cases is <;> cases js
    · rfl
    · rfl
    · rfl
    · exact @OrientedCmp.eq_swap _ compareIdentifiers _ _ _
  isLE_trans {is js ks} left right := by
    cases is <;> cases js <;> cases ks
    all_goals first
      | exact @TransCmp.isLE_trans _ compareIdentifiers _ _ _ _ left right
      | contradiction
      | rfl

theorem compare_eq_lex :
    Version.compare = compareLex (compareOn major) (compareLex (compareOn minor)
      (compareLex (compareOn patch) (compareLex (fun v w => comparePre v.pre w.pre)
        fun v w => compareIdentifiers v.build w.build))) :=
  rfl

instance : TransCmp Version.compare := by
  have hPre := transCmp_on comparePre pre
  have hBuild := transCmp_on compareIdentifiers build
  rw [compare_eq_lex]
  infer_instance

variable {u v w : Version}

theorem le_iff_isLE : v ≤ w ↔ (v.compare w).isLE = true := by
  change v.compare w ≠ .gt ↔ _
  cases v.compare w <;> decide

theorem not_lt : ¬v < w ↔ w ≤ v := by
  change ¬v.compare w = .lt ↔ ¬w.compare v = .gt
  rw [OrientedCmp.gt_iff_lt]

theorem not_le : ¬v ≤ w ↔ w < v := by
  rw [← not_lt, Decidable.not_not]

theorem lt_irrefl (v : Version) : ¬v < v := by
  change ¬v.compare v = .lt
  simp [ReflCmp.compare_self]

theorem le_refl (v : Version) : v ≤ v :=
  not_lt.mp (lt_irrefl v)

theorem lt_trans (left : u < v) (right : v < w) : u < w :=
  TransCmp.lt_trans left right

theorem le_of_lt (h : v < w) : v ≤ w :=
  not_lt.mp fun back => lt_irrefl v (lt_trans h back)

theorem lt_of_le_of_lt (left : u ≤ v) (right : v < w) : u < w :=
  TransCmp.lt_of_isLE_of_lt (le_iff_isLE.mp left) right

end ServiceBroker.Version
