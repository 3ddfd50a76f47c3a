import HintServer.Proofs.CommandLine.Listing
import HintServer.Server.Handler
import Mathlib.Data.List.Basic

/-! Command lines made of complete groups: flags, and languages with their values.
Such a command line is always read; what it asks for is the set of its flags and the list of its
languages, so that the order of the groups counts only between languages, and not even there for
the documents that are served.
-/

namespace HintServer.CommandLine

/-- The argument that sets a flag. -/
def Flag.argument : Flag → String
  | .stdio => "--stdio"
  | .debug => "--debug"
  | .dumpCatalog => "--dump-catalog"

/-- A part of a command line that is complete in itself. -/
inductive Group where
  | flag (given : Flag)
  | language (id : String)
deriving DecidableEq, Repr

namespace Group

def arguments : Group → List String
  | .flag given => [given.argument]
  | .language id => ["--language", id]

def language? : Group → Option String
  | .flag _ => none
  | .language id => some id

end Group

/-- The options with those of one more group. -/
def Options.add (options : Options) : Group → Options
  | .flag given => options.set given
  | .language id => options.addLanguage id

/-- What is launched serves a document that stands at an address of a store. -/
def Launch.Serves (launch : Launch) (store : Store) (uri : Uri) (document : Document) : Prop :=
  ∃ config, launch = .serve config ∧ Server.served? config store uri = some document

-----------------------------------------------------------------------------------------
-- Reading one group
-----------------------------------------------------------------------------------------

theorem Flag.ofName?_name (flag : Flag) : Flag.ofName? flag.name = some flag := by
  cases flag <;> decide

theorem Flag.name_ne_languageName (flag : Flag) : flag.name ≠ languageName := by
  cases flag <;> decide

theorem Argument.ofString_argument (flag : Flag)
    : Argument.ofString flag.argument = .long flag.name none := by
  cases flag <;> decide

theorem Argument.ofString_language
    : Argument.ofString "--language" = .long languageName none := by
  decide

/-- A text that does not start with a dash is a plain word. -/
theorem Argument.ofString_of_no_dash {text : String} (noDash : text.toList.head? ≠ some '-')
    : Argument.ofString text = .plain text := by
  unfold Argument.ofString
  split
  case h_1 dashes => simp [dashes] at noDash
  case h_2 dashes => simp [dashes] at noDash
  case h_3 dash => simp [dash] at noDash
  case h_4 => rfl

/-- A flag that is not set yet is read and set. -/
theorem readFrom_flag {options : Options} {flag : Flag} (fresh : options.has flag = false)
    (rest : List String)
    : readFrom options (flag.argument :: rest) = readFrom (options.set flag) rest := by
  rw [readFrom.eq_def]
  simp only [Argument.ofString_argument, if_neg flag.name_ne_languageName, readLong,
    Flag.ofName?_name, fresh, Bool.false_eq_true, if_false]

/-- A language is read with its value and added after those before. -/
theorem readFrom_language {id : String} (noDash : id.toList.head? ≠ some '-')
    (options : Options) (rest : List String)
    : readFrom options ("--language" :: id :: rest) = readFrom (options.addLanguage id) rest := by
  rw [readFrom.eq_def]
  simp only [Argument.ofString_language, if_true, Argument.ofString_of_no_dash noDash]

-----------------------------------------------------------------------------------------
-- The options of many groups
-----------------------------------------------------------------------------------------

/-- Options are known by their flags and languages. -/
theorem Options.eq_of_has {first second : Options}
    (flags : ∀ flag, first.has flag = second.has flag)
    (languages : first.languages = second.languages)
    : first = second := by
  cases first
  cases second
  obtain rfl : _ = _ := flags .stdio
  obtain rfl : _ = _ := flags .debug
  obtain rfl : _ = _ := flags .dumpCatalog
  obtain rfl : _ = _ := languages
  rfl

theorem Options.has_add (options : Options) (group : Group) (flag : Flag)
    : (options.add group).has flag = (options.has flag || group == .flag flag) := by
  cases group with
  | flag given => cases given <;> cases flag <;> simp [add, set, has]
  | language id => cases flag <;> simp [add, addLanguage, has]

theorem Options.languages_add (options : Options) (group : Group)
    : (options.add group).languages = options.languages ++ group.language?.toList := by
  cases group with
  | flag given => cases given <;> simp [add, set, Group.language?]
  | language id => rfl

/-- The flags of options with those of groups are theirs and those of the groups, by induction on
the groups.
-/
theorem Options.has_foldl_add (options : Options) (groups : List Group) (flag : Flag)
    : (groups.foldl add options).has flag = (options.has flag || groups.contains (.flag flag)) := by
  induction groups generalizing options with
  | nil => simp
  | cons group rest ih =>
      rw [List.foldl_cons, ih, has_add, List.contains_cons, Bool.or_assoc, Bool.beq_comm]

/-- The languages of groups are added in their order, by induction on the groups. -/
theorem Options.languages_foldl_add (options : Options) (groups : List Group)
    : (groups.foldl add options).languages
      = options.languages ++ groups.filterMap Group.language? := by
  induction groups generalizing options with
  | nil => simp
  | cons group rest ih =>
      rw [List.foldl_cons, ih, languages_add, List.append_assoc]
      cases group <;> rfl

/-- Options accept groups when no flag is given twice, counting those that are set. -/
def Options.Accepts (options : Options) (groups : List Group) : Prop :=
  ∀ flag, (options.has flag).toNat + groups.count (.flag flag) ≤ 1

/-- A flag that options accept next is not set yet. -/
theorem Options.Accepts.fresh {options : Options} {flag : Flag} {rest : List Group}
    (accepts : options.Accepts (.flag flag :: rest))
    : options.has flag = false := by
  have here := accepts flag
  rw [List.count_cons_self] at here
  exact Bool.toNat_eq_zero.mp (by omega)

/-- Options with a group that they accept accept the groups after it. -/
theorem Options.Accepts.add {options : Options} {group : Group} {rest : List Group}
    (accepts : options.Accepts (group :: rest))
    : (options.add group).Accepts rest := by
  intro flag
  have here := accepts flag
  rw [List.count_cons] at here
  rw [has_add]
  cases same : group == .flag flag with
  | false => simpa [same] using here
  | true =>
      simp only [same, if_true, Bool.or_true, Bool.toNat_true] at here ⊢
      omega

/-- Groups are read one after the other, by induction on them. -/
theorem readFrom_groups {options : Options} {groups : List Group}
    (accepts : options.Accepts groups)
    (noDash : ∀ id, .language id ∈ groups → id.toList.head? ≠ some '-')
    : readFrom options (groups.flatMap Group.arguments)
      = .ok (.options (groups.foldl Options.add options)) := by
  induction groups generalizing options with
  | nil => rfl
  | cons group rest ih =>
      have noDashRest : ∀ id, .language id ∈ rest → id.toList.head? ≠ some '-' :=
        fun id member => noDash id (List.mem_cons_of_mem group member)
      rw [List.flatMap_cons, List.foldl_cons, ← ih accepts.add noDashRest]
      cases group with
      | flag given => exact readFrom_flag accepts.fresh _
      | language id => exact readFrom_language (noDash id List.mem_cons_self) options _

-----------------------------------------------------------------------------------------
-- What is launched
-----------------------------------------------------------------------------------------

/-- The options that groups ask for: the flags that are present and the languages in order. -/
def Options.ofGroups (groups : List Group) : Options :=
  {
    stdio := decide (.flag .stdio ∈ groups),
    debug := decide (.flag .debug ∈ groups),
    dumpCatalog := decide (.flag .dumpCatalog ∈ groups),
    languages := groups.filterMap Group.language?
  }

theorem Options.has_ofGroups (groups : List Group) (flag : Flag)
    : (ofGroups groups).has flag = decide (.flag flag ∈ groups) := by
  cases flag <;> rfl

theorem Options.has_none (flag : Flag) : none.has flag = false := by
  cases flag <;> rfl

theorem Options.foldl_add_none (groups : List Group) : groups.foldl add none = ofGroups groups := by
  apply eq_of_has
  · intro flag
    rw [has_foldl_add, has_none, Bool.false_or, has_ofGroups, List.contains_eq_mem]
  · rw [languages_foldl_add]
    rfl

/-- Complete groups are read as the options that they ask for, as no option is set before. -/
theorem read_groups {groups : List Group} (once : ∀ flag, groups.count (.flag flag) ≤ 1)
    (noDash : ∀ id, .language id ∈ groups → id.toList.head? ≠ some '-')
    : read (groups.flatMap Group.arguments) = .ok (.options (.ofGroups groups)) := by
  have accepts : Options.none.Accepts groups := by
    intro flag
    rw [Options.has_none, Bool.toNat_false, Nat.zero_add]
    exact once flag
  rw [read, readFrom_groups accepts noDash, Options.foldl_add_none]

theorem launch_groups {groups : List Group} (once : ∀ flag, groups.count (.flag flag) ≤ 1)
    (noDash : ∀ id, .language id ∈ groups → id.toList.head? ≠ some '-')
    : launch (groups.flatMap Group.arguments) = launchWith (.ofGroups groups) := by
  rw [launch, read_groups once noDash]

/-- Settings that name the same languages in another order support the same ones. -/
theorem supports_ofLanguages_of_perm {first second : List String} (same : first.Perm second)
    (debug : Bool)
    : (Config.ofLanguages debug first).supports = (Config.ofLanguages debug second).supports := by
  funext id
  rw [Config.supports, Config.supports, Config.ofLanguages, Config.ofLanguages,
    same.isEmpty_eq]
  split
  case isTrue => rfl
  case isFalse => exact same.contains_eq

/-- Options with reordered languages serve the same documents. -/
theorem serves_launchWith_congr {options : Options} {languages : List String}
    (same : languages.Perm options.languages) (store : Store) (uri : Uri) (document : Document)
    : (launchWith { options with languages }).Serves store uri document
      ↔ (launchWith options).Serves store uri document := by
  unfold launchWith
  split
  case isTrue => rfl
  case isFalse =>
    split
    case isFalse => rfl
    case isTrue =>
      simp only [Launch.Serves, Launch.serve.injEq, exists_eq_left', Server.served?,
        supports_ofLanguages_of_perm same]

-----------------------------------------------------------------------------------------
-- Reordered groups
-----------------------------------------------------------------------------------------

section Reordered

variable {groups other : List Group} (same : groups.Perm other)
  (once : ∀ flag, groups.count (.flag flag) ≤ 1)
  (noDash : ∀ id, .language id ∈ groups → id.toList.head? ≠ some '-')

include same once noDash

/-- Reordered groups ask for the same flags, and for the languages in their own order. -/
theorem launch_groups_of_perm
    : launch (other.flatMap Group.arguments)
      = launchWith
          { Options.ofGroups groups with languages := other.filterMap Group.language? } := by
  have onceOther : ∀ flag, other.count (.flag flag) ≤ 1 := by
    intro flag
    rw [← same.count_eq]
    exact once flag
  have noDashOther : ∀ id, .language id ∈ other → id.toList.head? ≠ some '-' :=
    fun id member => noDash id (same.mem_iff.mpr member)
  rw [launch_groups onceOther noDashOther]
  simp only [Options.ofGroups, same.mem_iff]

theorem serves_groups_iff_of_perm (store : Store) (uri : Uri) (document : Document)
    : (launch (other.flatMap Group.arguments)).Serves store uri document
      ↔ (launch (groups.flatMap Group.arguments)).Serves store uri document := by
  rw [launch_groups_of_perm same once noDash, launch_groups once noDash]
  exact serves_launchWith_congr (same.filterMap Group.language?).symm store uri document

end Reordered

/-- Complete groups combine in any order, if each flag is given at most once and no language starts
with a dash. They are read, each flag is set when it is present, and the languages are those given
in their order. Asking for the catalog prints it before all else, as the listing of its entries
from which a reader gets every one of them back; otherwise serving has to be asked for, and the
settings name the languages given or the two default ones. Reordered groups launch the same as long
as the languages keep their order, and serve the same documents in any case.
-/
theorem options_combine_in_any_order {groups : List Group}
    (once : ∀ flag, groups.count (.flag flag) ≤ 1)
    (noDash : ∀ id, .language id ∈ groups → id.toList.head? ≠ some '-')
    : let arguments := groups.flatMap Group.arguments
      let named := groups.filterMap Group.language?
      (∃ options,
        read arguments = .ok (.options options)
        ∧ (∀ flag, options.has flag = true ↔ .flag flag ∈ groups)
        ∧ options.languages = named)
      ∧ (.flag .dumpCatalog ∈ groups
        → launch arguments = .print (Catalog.listing Catalog.builtin.entries)
          ∧ (launch arguments).status = 0
          ∧ Json.parse? (Catalog.listing Catalog.builtin.entries)
            = some
                (.arr
                  (Catalog.builtin.entries.map fun entry =>
                    .obj
                      [
                        ("name", .str entry.name),
                        ("category", .str entry.category.label),
                        ("documentation", .str entry.documentation)
                      ])))
      ∧ (.flag .dumpCatalog ∉ groups
        → .flag .stdio ∉ groups
        → launch arguments = .fail 1 "Error: --stdio flag is required\n"
          ∧ (launch arguments).status = 1)
      ∧ (.flag .dumpCatalog ∉ groups
        → .flag .stdio ∈ groups
        → ∃ config,
            launch arguments = .serve config
            ∧ (config.debug = true ↔ .flag .debug ∈ groups)
            ∧ config.languages = (if named = [] then ["javascript", "typescript"] else named)
            ∧ config.languages ≠ []
            ∧ ∀ id, config.supports id = true ↔ id ∈ config.languages)
      ∧ ∀ other,
          groups.Perm other
          → (other.filterMap Group.language? = named
              → launch (other.flatMap Group.arguments) = launch arguments)
            ∧ ∀ store uri document,
                (launch (other.flatMap Group.arguments)).Serves store uri document
                ↔ (launch arguments).Serves store uri document := by
  intro arguments named
  have launched := launch_groups once noDash
  refine ⟨⟨_, read_groups once noDash, ?_, rfl⟩, ?_, ?_, ?_, ?_⟩
  · intro flag
    rw [Options.has_ofGroups, decide_eq_true_iff]
  · intro dumps
    have prints : launch arguments = .print (Catalog.listing Catalog.builtin.entries) := by
      rw [← catalogText_eq_listing]
      exact launched.trans (if_pos (decide_eq_true dumps))
    have readBack := parse?_catalogText
    rw [catalogText_eq_listing] at readBack
    exact ⟨prints, congrArg Launch.status prints, readBack⟩
  · intro noDump noServe
    have fails : launch arguments = .fail 1 "Error: --stdio flag is required\n" := by
      rw [launched, launchWith, Options.ofGroups, if_neg (by simpa using noDump),
        if_neg (by simpa using noServe)]
    exact ⟨fails, congrArg Launch.status fails⟩
  · intro noDump serves
    have launches : launch arguments
        = .serve (.ofLanguages (decide (.flag .debug ∈ groups)) named) := by
      rw [launched, launchWith, Options.ofGroups, if_neg (by simpa using noDump),
        if_pos (by simpa using serves)]
    refine ⟨_, launches, decide_eq_true_iff, ?_, ?_, fun id => List.contains_iff_mem⟩
    · simp only [Config.ofLanguages, List.isEmpty_iff]
      rfl
    · simp only [Config.ofLanguages, List.isEmpty_iff]
      split
      case isTrue => exact List.cons_ne_nil _ _
      case isFalse nonempty => exact nonempty
  · intro other same
    refine ⟨fun languages => ?_, serves_groups_iff_of_perm same once noDash⟩
    rw [launch_groups_of_perm same once noDash, languages, launched]
    rfl

/-- Two languages around a flag are served in their order, and the other order serves the same
documents; with one more flag between them the catalog is printed instead, with a chunk helper in
it.
-/
theorem dump_prints_catalog_and_languages_serve
    : let groups : List Group :=
        [.language "vue", .flag .debug, .language "typescript", .flag .stdio]
      let other : List Group :=
        [.flag .stdio, .language "typescript", .language "vue", .flag .debug]
      let dumping : List Group :=
        [.language "vue", .flag .dumpCatalog, .flag .stdio, .language "typescript"]
      (∀ flag, groups.count (.flag flag) ≤ 1)
      ∧ (∀ id, .language id ∈ groups → id.toList.head? ≠ some '-')
      ∧ groups.Perm other
      ∧ (∃ config,
          launch ["--language", "vue", "--debug", "--language", "typescript", "--stdio"]
            = .serve config
          ∧ config.languages = ["vue", "typescript"])
      ∧ (∀ store uri document,
          (launch ["--stdio", "--language", "typescript", "--language", "vue", "--debug"]).Serves
              store uri document
          ↔ (launch ["--language", "vue", "--debug", "--language", "typescript",
              "--stdio"]).Serves store uri document)
      ∧ (∀ flag, dumping.count (.flag flag) ≤ 1)
      ∧ (∀ id, .language id ∈ dumping → id.toList.head? ≠ some '-')
      ∧ ∃ text elements,
          launch ["--language", "vue", "--dump-catalog", "--stdio", "--language", "typescript"]
            = .print text
          ∧ Json.parse? text = some (.arr elements)
          ∧ .obj
              [
                ("name", .str "chunk"),
                ("category", .str "array"),
                ("documentation", .str "Splits an array into chunks of the specified size.")
              ]
            ∈ elements := by
  intro groups other dumping
  have once : ∀ flag, groups.count (.flag flag) ≤ 1 := by
    intro flag
    cases flag <;> decide
  have noDashNamed : ∀ id ∈ ["vue", "typescript"], id.toList.head? ≠ some '-' := by decide
  have noDash : ∀ id, .language id ∈ groups → id.toList.head? ≠ some '-' :=
    fun id member => noDashNamed id (by simpa [groups] using member)
  have same : groups.Perm other := by decide
  have onceDumping : ∀ flag, dumping.count (.flag flag) ≤ 1 := by
    intro flag
    cases flag <;> decide
  have noDashDumping : ∀ id, .language id ∈ dumping → id.toList.head? ≠ some '-' :=
    fun id member => noDashNamed id (by simpa [dumping] using member)
  obtain ⟨-, -, -, serves, reordered⟩ := options_combine_in_any_order once noDash
  obtain ⟨config, launched, -, languages, -⟩ := serves (by decide) (by decide)
  obtain ⟨-, dumps, -⟩ := options_combine_in_any_order onceDumping noDashDumping
  obtain ⟨printed, -, readBack⟩ := dumps (by decide)
  refine
    ⟨once, noDash, same, ⟨config, launched, languages⟩, (reordered other same).2, onceDumping,
      noDashDumping, _, _, printed, readBack, ?_⟩
  exact List.mem_map.mpr ⟨_, chunk_mem_builtin, rfl⟩

end HintServer.CommandLine
