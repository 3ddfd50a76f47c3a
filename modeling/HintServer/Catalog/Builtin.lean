import HintServer.Catalog.Basic

/-! The utilities that the server documents, one table a category.
Completion and hover both read the catalog built here, so a utility is declared once.
-/

namespace HintServer.Catalog.Builtin

/-- A name with its documentation. -/
abbrev Declaration := String × String

def stringTable : List Declaration :=
  [
    ("toTitleCase",
      "Converts a string to title case (e.g., \"hello world\" -> \"Hello World\")."),
    ("reverse",
      "Reverses the characters in a string (e.g., \"hello\" -> \"olleh\")."),
    ("containsIgnoreCase",
      "Checks if a string contains a substring, ignoring case."),
    ("truncate",
      "Truncates a string to a specified length and adds ellipsis if needed."),
    ("toSnakeCase", "Converts a string to snake_case."),
    ("toPascalCase", "Converts a string to PascalCase."),
    ("toCamelCase", "Converts a string to camelCase."),
    ("toKebabCase", "Converts a string to kebab-case.")
  ]

def arrayTable : List Declaration :=
  [
    ("chunk", "Splits an array into chunks of the specified size."),
    ("average", "Calculates the average of numerical values in an array."),
    ("unique", "Removes duplicate elements from an array."),
    ("flatten", "Flattens a nested array into a single-level array."),
    ("groupBy", "Groups array elements by a callback function.")
  ]

def objectTable : List Declaration :=
  [
    ("deepClone", "Creates a deep clone of an object."),
    ("merge", "Merges two objects, combining their properties.")
  ]

def numberTable : List Declaration :=
  [
    ("clamp", "Clamps a number within a specified range."),
    ("isPrime", "Checks if a number is prime."),
    ("toOrdinal",
      "Converts a number to its ordinal form (e.g., 1 -> \"1st\")."),
    ("toRoman", "Converts a number to Roman numerals.")
  ]

def dateTable : List Declaration :=
  [
    ("isWeekend", "Checks if a date falls on a weekend."),
    ("addDays", "Adds the specified number of days to a date."),
    ("startOfWeek", "Gets the start of the week for a given date."),
    ("format",
      "Formats a date into a specified format (default: \"yyyy-mm-dd\").")
  ]

def table : Category → List Declaration
  | .string => stringTable
  | .array => arrayTable
  | .object => objectTable
  | .number => numberTable
  | .date => dateTable

/-- The declared utilities, category by category. -/
def entries : List Utility :=
  Category.all.flatMap fun category =>
    (table category).map fun (name, documentation) => { name, category, documentation }

end Builtin

/-- The catalog of the declared utilities. -/
def builtin : Catalog := ofList Builtin.entries

end HintServer.Catalog
