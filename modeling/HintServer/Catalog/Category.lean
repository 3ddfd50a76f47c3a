/-! The five categories of utilities and their order.
A catalog lists its utilities category by category in this order.
-/

namespace HintServer

/-- The category a utility is filed under. -/
inductive Category where
  | string
  | array
  | object
  | number
  | date
deriving DecidableEq, Repr

namespace Category

/-- The categories in catalog order. -/
def all : List Category := [.string, .array, .object, .number, .date]

def label : Category → String
  | .string => "string"
  | .array => "array"
  | .object => "object"
  | .number => "number"
  | .date => "date"

def ofLabel? (label : String) : Option Category :=
  all.find? (fun category => category.label = label)

/-- The position of a category in catalog order. -/
def rank : Category → Nat
  | .string => 0
  | .array => 1
  | .object => 2
  | .number => 3
  | .date => 4

instance : LE Category := ⟨fun first second => first.rank ≤ second.rank⟩

instance (first second : Category) : Decidable (first ≤ second) :=
  inferInstanceAs (Decidable (first.rank ≤ second.rank))

/-- The order of categories is the order of their ranks, by definition. -/
theorem le_iff_rank_le (first second : Category)
    : first ≤ second ↔ first.rank ≤ second.rank :=
  Iff.rfl

/-- Categories of one rank are equal, by cases on both. -/
theorem rank_injective {first second : Category} (h : first.rank = second.rank)
    : first = second := by
  cases first <;> cases second <;> simp_all [rank]

def sort (categories : List Category) : List Category :=
  categories.mergeSort (fun first second => decide (first ≤ second))

end Category

end HintServer
