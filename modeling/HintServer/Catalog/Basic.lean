import HintServer.Catalog.Category
import Std.Data.HashMap

/-! A catalog holds utilities grouped by category, together with an index of their names.
Building a catalog groups stably; a name that repeats keeps its first position in the index,
and validation reports the first entry whose name has been seen before.
-/

namespace HintServer

/-- A utility function that the server knows. -/
structure Utility where
  name : String
  category : Category
  documentation : String
deriving DecidableEq, Repr

/-- Utilities in category order with the position that each name resolves to. -/
structure Catalog where
  entries : List Utility
  index : Std.HashMap String Nat

namespace Catalog

/-- Groups utilities by category and keeps the given order inside a category. -/
def group (utilities : List Utility) : List Utility :=
  utilities.mergeSort (fun first second => decide (first.category ≤ second.category))

/-- Adds the names of a list, counted from a position, unless they already have one. -/
def indexFrom (position : Nat) (index : Std.HashMap String Nat)
    : List Utility → Std.HashMap String Nat
  | [] => index
  | entry :: rest => indexFrom (position + 1) (index.insertIfNew entry.name position) rest

/-- The index of a list sends a name to the first position that holds it. -/
def indexOf (entries : List Utility) : Std.HashMap String Nat :=
  indexFrom 0 ∅ entries

def ofList (utilities : List Utility) : Catalog :=
  let entries := group utilities
  { entries, index := indexOf entries }

def size (catalog : Catalog) : Nat :=
  catalog.entries.length

def isEmpty (catalog : Catalog) : Bool :=
  catalog.entries.isEmpty

/-- Resolves an exact, case-sensitive name through the index. -/
def lookup (catalog : Catalog) (name : String) : Option Utility :=
  catalog.index[name]?.bind (fun position => catalog.entries[position]?)

/-- The entries of one category in catalog order. -/
def byCategory (catalog : Catalog) (category : Category) : List Utility :=
  catalog.entries.filter (fun entry => entry.category = category)

/-- Two entries, in these categories, share a name. -/
structure DuplicateName where
  name : String
  first : Category
  second : Category
deriving DecidableEq, Repr

def DuplicateName.message (clash : DuplicateName) : String :=
  "utility `" ++ clash.name ++ "` is declared twice (in the " ++ clash.first.label ++ " and "
    ++ clash.second.label ++ " categories)"

/-- The first entry of a list whose name was seen before, with the category seen then. -/
def firstClash? (seen : Std.HashMap String Category) : List Utility → Option DuplicateName
  | [] => none
  | entry :: rest =>
      match seen[entry.name]? with
      | some first => some { name := entry.name, first, second := entry.category }
      | none => firstClash? (seen.insert entry.name entry.category) rest

/-- Checks that no two entries share a name, and reports the first clash otherwise. -/
def validate (catalog : Catalog) : Except DuplicateName Unit :=
  match firstClash? ∅ catalog.entries with
  | some clash => .error clash
  | none => .ok ()

end Catalog

end HintServer
