import HintServer.Json.Parser
import HintServer.Json.Printer
import Mathlib.Data.List.Forall2

/-! Reading gives back what was printed over several lines.
The printed parts of a value are read as its tokens whatever stands around them, and its tokens
build it up on any stack of open containers; so a value of texts, arrays and objects is read back
as it was, if it does not nest deeper than a reader's stack.
-/

namespace HintServer.Json

/-- Values of texts, arrays and objects that nest at most so deep. -/
inductive Textual : Nat → Json → Prop
  | str {depth : Nat} (text : String) : Textual depth (.str text)
  | arr {depth : Nat} {elements : List Json}
    (within : ∀ element ∈ elements, Textual depth element)
    : Textual (depth + 1) (.arr elements)
  | obj {depth : Nat} {members : List (String × Json)}
    (within : ∀ member ∈ members, Textual depth member.2)
    : Textual (depth + 1) (.obj members)

mutual
/-- The tokens that spell a value. -/
def tokens : Json → List Token
  | .arr elements =>
      .openBracket :: [Token.comma].intercalate (elementTokens elements) ++ [.closeBracket]
  | .obj members =>
      .openBrace :: [Token.comma].intercalate (memberTokens members) ++ [.closeBrace]
  | value => [.leaf value]

def elementTokens : List Json → List (List Token)
  | [] => []
  | value :: rest => tokens value :: elementTokens rest

def memberTokens : List (String × Json) → List (List Token)
  | [] => []
  | (key, value) :: rest => (.leaf (.str key) :: .colon :: tokens value) :: memberTokens rest
end

-----------------------------------------------------------------------------------------
-- Characters and tokens
-----------------------------------------------------------------------------------------

namespace Token

/-- Characters between tokens are read as a list of tokens, whatever was read before them and
stands after them.
-/
def Spells (chars : List Char) (spelled : List Token) : Prop :=
  ∀ before rest,
    readFrom .between before (chars ++ rest) = readFrom .between (spelled.reverse ++ before) rest

theorem Spells.nil : Spells [] [] :=
  fun _ _ => rfl

theorem Spells.append {first second : List Char} {spelled more : List Token}
    (left : Spells first spelled) (right : Spells second more)
    : Spells (first ++ second) (spelled ++ more) := by
  intro before rest
  rw [List.append_assoc, left, right, List.reverse_append, List.append_assoc]

theorem spells_blank {char : Char} (blank : isBlank char = true) : Spells [char] [] := by
  intro before rest
  simp [readFrom, delimiter?, blank]

theorem spells_punctuation {char : Char} {token : Token}
    (mark : punctuation? char = some token)
    : Spells [char] [token] := by
  intro before rest
  unfold punctuation? at mark
  split at mark <;> cases mark <;> rfl

theorem isBlank_of_mem_feed {char : Char} (member : char ∈ "\n".toList)
    : isBlank char = true := by
  obtain rfl : char = '\n' := by simpa using member
  rfl

/-- Blank characters spell nothing, by induction on them. -/
theorem spells_blanks {chars : List Char} (blank : ∀ char ∈ chars, isBlank char = true)
    : Spells chars [] := by
  induction chars with
  | nil => exact .nil
  | cons char rest ih =>
      obtain ⟨first, others⟩ := List.forall_mem_cons.mp blank
      exact (spells_blank first).append (ih others)

/-- Parts with a gap between them are read as what each of them spells, by induction on them. -/
theorem Spells.intercalate {gap : List Char} {between : List Token} (gaps : Spells gap between)
    {parts : List (List Char)} {spelled : List (List Token)}
    (each : List.Forall₂ Spells parts spelled)
    : Spells (gap.intercalate parts) (between.intercalate spelled) := by
  induction each with
  | nil => exact .nil
  | @cons part tokens parts spelled first others ih =>
      cases others with
      | nil => simpa using first
      | cons =>
          rw [List.intercalate_cons_cons, List.intercalate_cons_cons]
          exact (first.append gaps).append ih

-----------------------------------------------------------------------------------------
-- Strings
-----------------------------------------------------------------------------------------

theorem value?_zero : Text.Hex.value? '0' = some 0 := by
  decide

theorem value?_lower : ∀ value < 16, Text.Hex.value? (Text.Hex.lower value) = some value := by
  decide

theorem unitRead_of_lt {unit : Nat} (scalar : unit < 0xD800) (reversed : List Char)
    : unitRead none unit reversed = some (.string .plain (Char.ofNat unit :: reversed)) := by
  rw [unitRead, if_neg (by omega), if_neg (by omega)]

/-- A control character is read back from four digits, the first two of which are zero. -/
theorem readFrom_control {char : Char} (control : char.toNat < 32) (reversed : List Char)
    (before : List Token) (rest : List Char)
    : readFrom (.string .plain reversed) before
          ('\\' :: 'u' :: '0' :: '0' :: Text.Hex.lower (char.toNat / 16)
            :: Text.Hex.lower (char.toNat % 16) :: rest)
      = readFrom (.string .plain (char :: reversed)) before rest := by
  have high := value?_lower (char.toNat / 16) (by omega)
  have low := value?_lower (char.toNat % 16) (by omega)
  have whole : 16 * (char.toNat / 16) + char.toNat % 16 = char.toNat := Nat.div_add_mod _ 16
  have unit := unitRead_of_lt (show char.toNat < 0xD800 by omega) reversed
  rw [Char.ofNat_toNat] at unit
  simp [readFrom, stringStep, value?_zero, high, low, whole, unit]

/-- A character is read back from its escape, by cases on how it is escaped: by a letter of its
own, by four digits or not at all.
-/
theorem readFrom_escapeChar (char : Char) (reversed : List Char) (before : List Token)
    (rest : List Char)
    : readFrom (.string .plain reversed) before (escapeChar char ++ rest)
      = readFrom (.string .plain (char :: reversed)) before rest := by
  unfold escapeChar
  split
  case h_8 noQuote noBackslash _ _ _ _ _ =>
    replace noQuote : char ≠ '"' := noQuote
    replace noBackslash : char ≠ '\\' := noBackslash
    split
    case isTrue control => exact readFrom_control (UInt32.lt_iff_toNat_lt.mp control) _ _ _
    case isFalse printed => simp [readFrom, stringStep, noQuote, noBackslash, printed]
  all_goals rfl

/-- A string is read back character by character up to its closing quote, by induction on it. -/
theorem readFrom_escaped (chars reversed : List Char) (before : List Token) (rest : List Char)
    : readFrom (.string .plain reversed) before (chars.flatMap escapeChar ++ '"' :: rest)
      = readFrom .between
          (.leaf (.str (String.ofList (reversed.reverse ++ chars))) :: before) rest := by
  induction chars generalizing reversed with
  | nil => simp [readFrom]
  | cons char chars ih =>
      rw [List.flatMap_cons, List.append_assoc, readFrom_escapeChar, ih]
      simp

theorem spells_quote (text : String) : Spells (quote text).toList [.leaf (.str text)] := by
  intro before rest
  have body := readFrom_escaped text.toList [] before rest
  rw [List.reverse_nil, List.nil_append, String.ofList_toList] at body
  simpa [quote, readFrom, delimiter?, isBlank] using body

end Token

-----------------------------------------------------------------------------------------
-- Values and tokens
-----------------------------------------------------------------------------------------

open Token

theorem elementTokens_eq_map (elements : List Json)
    : elementTokens elements = elements.map tokens := by
  induction elements with
  | nil => rfl
  | cons value rest ih => rw [elementTokens, ih, List.map_cons]

theorem memberTokens_eq_map (members : List (String × Json))
    : memberTokens members
      = members.map fun member => .leaf (.str member.1) :: .colon :: tokens member.2 := by
  induction members with
  | nil => rfl
  | cons member rest ih => rw [memberTokens, ih, List.map_cons]

theorem prettyElements_eq_map (depth : Nat) (elements : List Json)
    : prettyElements depth elements = elements.map (prettyAt depth) := by
  induction elements with
  | nil => rfl
  | cons value rest ih => rw [prettyElements, ih, List.map_cons]

theorem prettyMembers_eq_map (depth : Nat) (members : List (String × Json))
    : prettyMembers depth members
      = members.map fun member => quote member.1 ++ ": " ++ prettyAt depth member.2 := by
  induction members with
  | nil => rfl
  | cons member rest ih => rw [prettyMembers, ih, List.map_cons]

theorem spells_newLine (depth : Nat) : Spells (newLine depth).toList [] := by
  refine spells_blanks fun char member => ?_
  simp only [newLine, String.toList_append, List.mem_append] at member
  rcases member with feed | spaces
  · exact isBlank_of_mem_feed feed
  · rw [String.toList_ofList] at spaces
    rw [List.eq_of_mem_replicate spaces]
    rfl

theorem enclose_cons (opening closing : String) (depth : Nat) (part : String)
    (parts : List String)
    : enclose opening closing depth (part :: parts)
      = opening ++ newLine (depth + 1)
        ++ String.intercalate ("," ++ newLine (depth + 1)) (part :: parts)
        ++ newLine depth ++ closing :=
  rfl

/-- Enclosed parts are read as what they spell, with commas between and the brackets around. -/
theorem spells_enclose {opening closing : String} {first last : Token}
    (opens : Spells opening.toList [first]) (closes : Spells closing.toList [last]) (depth : Nat)
    {parts : List String} {spelled : List (List Token)}
    (each : List.Forall₂ Spells (parts.map String.toList) spelled)
    : Spells (enclose opening closing depth parts).toList
        (first :: [Token.comma].intercalate spelled ++ [last]) := by
  cases parts with
  | nil =>
      cases each
      rw [enclose, List.isEmpty_nil, if_pos rfl, String.toList_append]
      exact opens.append closes
  | cons part parts =>
      have gap : Spells ("," ++ newLine (depth + 1)).toList [.comma] := by
        rw [String.toList_append]
        exact (spells_punctuation rfl).append (spells_newLine _)
      rw [enclose_cons]
      simp only [String.toList_append, String.toList_intercalate]
      have opened := opens.append (spells_newLine (depth + 1))
      have closed := (spells_newLine depth).append closes
      have all := (opened.append (gap.intercalate each)).append closed
      simpa using all

/-- A printed value is read as its tokens, by induction on how it nests. -/
theorem Textual.spells_prettyAt {limit : Nat} {value : Json} (textual : Textual limit value)
    (depth : Nat)
    : Spells (prettyAt depth value).toList (tokens value) := by
  induction textual generalizing depth with
  | str text => exact spells_quote text
  | @arr _ elements _ ih =>
      have opens : Spells "[".toList [.openBracket] := spells_punctuation rfl
      have closes : Spells "]".toList [.closeBracket] := spells_punctuation rfl
      rw [prettyAt, prettyElements_eq_map, tokens, elementTokens_eq_map]
      refine spells_enclose opens closes depth ?_
      rw [List.map_map, List.forall₂_map_left_iff, List.forall₂_map_right_iff, List.forall₂_same]
      exact fun element member => ih element member (depth + 1)
  | @obj _ members _ ih =>
      have opens : Spells "\x7b".toList [.openBrace] := spells_punctuation rfl
      have closes : Spells "\x7d".toList [.closeBrace] := spells_punctuation rfl
      rw [prettyAt, prettyMembers_eq_map, tokens, memberTokens_eq_map]
      refine spells_enclose opens closes depth ?_
      rw [List.map_map, List.forall₂_map_left_iff, List.forall₂_map_right_iff, List.forall₂_same]
      intro member inside
      have colon : Spells ": ".toList [.colon] :=
        (spells_punctuation rfl).append (spells_blank rfl)
      rw [Function.comp_apply, String.toList_append, String.toList_append]
      exact ((spells_quote member.1).append colon).append (ih member inside (depth + 1))

-----------------------------------------------------------------------------------------
-- Tokens and values
-----------------------------------------------------------------------------------------

open Expectation

/-- The tokens of a value are read as that value on a stack of open containers, whatever follows. -/
def Yields (value : Json) (stack : List Frame) : Prop :=
  ∀ rest,
    (tokens value ++ rest).foldlM step (.anyValue stack) = rest.foldlM step (finish value stack)

/-- The first token of a value closes nothing. -/
theorem exists_tokens_eq_cons (value : Json)
    : ∃ first rest, tokens value = first :: rest ∧ first ≠ .closeBracket := by
  cases value <;> exact ⟨_, _, rfl, by simp⟩

theorem exists_intercalate_eq_cons (gap : List Token) (first : Token) (rest : List Token)
    (others : List (List Token))
    : ∃ more, gap.intercalate ((first :: rest) :: others) = first :: more := by
  cases others with
  | nil => exact ⟨rest, List.intercalate_singleton⟩
  | cons => exact ⟨_, List.intercalate_cons_cons⟩

/-- Where an array may end, a token that does not end it begins its first element. -/
theorem foldlM_firstElement {first : Token} (more : first ≠ .closeBracket) (rest : List Token)
    (stack : List Frame)
    : (first :: rest).foldlM step (.firstElement stack)
      = (first :: rest).foldlM step (.anyValue (.element [] :: stack)) := by
  cases first <;> first | contradiction | rfl

theorem foldlM_firstKey (key : Json) (rest : List Token) (stack : List Frame)
    : (Token.leaf key :: rest).foldlM step (.firstKey stack)
      = (Token.leaf key :: rest).foldlM step (.nextKey [] stack) := by
  rfl

section Items

variable {α : Type} (spell : α → List Token) (closing : Token)
  (next after done : List α → Expectation)
  (comma : ∀ reversed, step (after reversed) .comma = some (next reversed))
  (close : ∀ reversed, step (after reversed) closing = some (done reversed))

include comma close

/-- The items of a container are read one after the other, each onto those before it, by induction
on them.
-/
theorem foldlM_items {items : List α} (nonempty : items ≠ [])
    (each
      : ∀ item ∈ items,
          ∀ reversed rest,
            (spell item ++ rest).foldlM step (next reversed)
            = rest.foldlM step (after (item :: reversed)))
    (reversed : List α) (rest : List Token)
    : ([Token.comma].intercalate (items.map spell) ++ closing :: rest).foldlM step (next reversed)
      = rest.foldlM step (done (items.reverse ++ reversed)) := by
  induction items generalizing reversed with
  | nil => contradiction
  | cons item others ih =>
      obtain ⟨first, later⟩ := List.forall_mem_cons.mp each
      by_cases last : others = []
      · subst last
        rw [List.map_singleton, List.intercalate_singleton, first, List.foldlM_cons, close]
        rfl
      · rw [List.map_cons, List.intercalate_cons_of_ne_nil (by simpa using last), List.append_assoc,
          List.append_assoc, first, List.singleton_append, List.foldlM_cons, comma]
        have onward := ih last later (item :: reversed)
        simpa using onward

end Items

theorem foldlM_elements {stack : List Frame} {elements : List Json} (nonempty : elements ≠ [])
    (each : ∀ element ∈ elements, ∀ reversed, Yields element (.element reversed :: stack))
    (rest : List Token)
    : ([Token.comma].intercalate (elements.map tokens) ++ .closeBracket :: rest).foldlM step
          (.anyValue (.element [] :: stack))
      = rest.foldlM step (finish (.arr elements) stack) := by
  have items := foldlM_items tokens .closeBracket
    (fun reversed => .anyValue (.element reversed :: stack))
    (fun reversed => .separator (.array reversed) stack)
    (fun reversed => finish (.arr reversed.reverse) stack)
    (fun _ => rfl) (fun _ => rfl) nonempty each [] rest
  rwa [List.append_nil, List.reverse_reverse] at items

/-- A member is read as its key, a colon and its value. -/
theorem foldlM_members {stack : List Frame} {members : List (String × Json)}
    (nonempty : members ≠ [])
    (each
      : ∀ member ∈ members, ∀ reversed, Yields member.2 (.member reversed member.1 :: stack))
    (rest : List Token)
    : ([Token.comma].intercalate
            (members.map fun member => .leaf (.str member.1) :: .colon :: tokens member.2)
          ++ .closeBrace :: rest).foldlM step (.nextKey [] stack)
      = rest.foldlM step (finish (.obj members) stack) := by
  have items := foldlM_items
    (fun member : String × Json => .leaf (.str member.1) :: .colon :: tokens member.2) .closeBrace
    (fun reversed => .nextKey reversed stack)
    (fun reversed => .separator (.object reversed) stack)
    (fun reversed => finish (.obj reversed.reverse) stack)
    (fun _ => rfl) (fun _ => rfl) nonempty each [] rest
  rwa [List.append_nil, List.reverse_reverse] at items

/-- A value that does not nest too deep is read from its tokens, by induction on how it nests. -/
theorem Textual.yields {limit : Nat} {value : Json} (textual : Textual limit value)
    {stack : List Frame} (fits : stack.length + limit ≤ depthLimit)
    : Yields value stack := by
  induction textual generalizing stack with
  | str text => exact fun _ => rfl
  | @arr limit elements _ ih =>
      intro rest
      have deeper : stack.length + 1 + limit ≤ depthLimit := by omega
      have opened : step (.anyValue stack) .openBracket = some (.firstElement stack) :=
        if_pos (by omega)
      rw [tokens, elementTokens_eq_map, List.cons_append, List.cons_append, List.foldlM_cons,
        opened, List.append_assoc, List.singleton_append]
      cases elements with
      | nil => rfl
      | cons element others =>
          have items := foldlM_elements (List.cons_ne_nil element others)
            (fun item member _ => ih item member deeper) rest
          obtain ⟨first, more, spelled, inside⟩ := exists_tokens_eq_cons element
          obtain ⟨tail, split⟩ := exists_intercalate_eq_cons [Token.comma] first more
            (others.map tokens)
          rw [List.map_cons, spelled, split] at items ⊢
          exact (foldlM_firstElement inside _ stack).trans items
  | @obj limit members _ ih =>
      intro rest
      have deeper : stack.length + 1 + limit ≤ depthLimit := by omega
      have opened : step (.anyValue stack) .openBrace = some (.firstKey stack) :=
        if_pos (by omega)
      rw [tokens, memberTokens_eq_map, List.cons_append, List.cons_append, List.foldlM_cons,
        opened, List.append_assoc, List.singleton_append]
      cases members with
      | nil => rfl
      | cons member others =>
          have items := foldlM_members (List.cons_ne_nil member others)
            (fun item member _ => ih item member deeper) rest
          obtain ⟨tail, split⟩ := exists_intercalate_eq_cons [Token.comma] (.leaf (.str member.1))
            (.colon :: tokens member.2)
            (others.map fun member => .leaf (.str member.1) :: .colon :: tokens member.2)
          rw [List.map_cons, split] at items ⊢
          exact (foldlM_firstKey _ _ stack).trans items

/-- A value of texts, arrays and objects that a reader's stack can hold is read back from what is
printed over several lines, also with blank characters after it.
-/
theorem parse?_pretty {value : Json} (textual : Textual depthLimit value) {after : String}
    (blank : ∀ char ∈ after.toList, isBlank char = true)
    : parse? (value.pretty ++ after) = some value := by
  have spelled := (textual.spells_prettyAt 0).append (spells_blanks blank)
  have read : Token.ofText? (value.pretty ++ after) = some (tokens value) := by
    have all := spelled [] []
    rw [List.append_nil, List.append_nil, List.append_nil, ← String.toList_append] at all
    rw [Token.ofText?, pretty, all]
    simp [readFrom]
  have yields : Yields value [] := textual.yields (Nat.le_of_eq (Nat.zero_add depthLimit))
  have built := yields []
  rw [List.append_nil] at built
  rw [parse?, read, Option.bind_some, ofTokens?, built]
  rfl

end HintServer.Json
