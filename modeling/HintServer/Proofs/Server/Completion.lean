import HintServer.Proofs.Document.Hover
import HintServer.Proofs.Server.Address
import HintServer.Proofs.Text.Lines

/-! A utility that completion offers is one that hovering knows.
Main statement: an item put into a document as a whole word is documented there, at each column
from its start to its end, whatever stands around it.
-/

namespace HintServer

/-- What follows a word is no word character if its end is cut off. -/
theorem Text.IsWhole.shrink {before word after rest : List Char}
    (whole : IsWhole before word after) (start : rest <+: after)
    : IsWhole (lastLine before) word rest where
  left := by
    intro char last
    obtain ⟨lines, split⟩ := List.rtakeWhile_suffix (· != '\n') before
    apply whole.left
    rw [← split, List.getLast?_append, show before.rtakeWhile _ = lastLine before from rfl, last]
    rfl
  right := by
    intro char first
    obtain ⟨more, rfl⟩ := start
    apply whole.right
    rw [List.head?_append, first]
    rfl

/-- A builtin name put into a text as a whole word stands at each of its columns. -/
theorem nameAt_of_inserted {entry : Utility} (listed : entry ∈ Catalog.builtin.entries)
    {before after : List Char} (whole : Text.IsWhole before entry.name.toList after)
    (position : Position) (line : position.line.toNat = before.count '\n')
    (starts : Text.unitCount (Text.lastLine before) ≤ position.character.toNat)
    (ends
      : position.character.toNat
        ≤ Text.unitCount (Text.lastLine before ++ entry.name.toList))
    : ∃ rest,
        NameAt (String.ofList (before ++ entry.name.toList ++ after)) position entry
          (Text.lastLine before) rest := by
  have ⟨nonempty, characters⟩ := Catalog.builtin_name_is_word listed
  have ⟨noFeed, noReturn⟩ := Text.not_mem_of_words characters
  obtain ⟨rest, start, found⟩ :=
    Text.lines_getElem?_of_word before after nonempty noFeed noReturn
  have upToName
      : (Text.lastLine before ++ entry.name.toList ++ rest).take
          (Text.lastLine before ++ entry.name.toList).length
        = Text.lastLine before ++ entry.name.toList :=
    List.take_left
  refine ⟨rest, {
    listed
    line := by rw [String.toList_ofList, line, found]
    whole := whole.shrink start
    inLine := ?_
    starts := Nat.le_trans starts (Text.le_settled _ _)
    ends := ?_
  }⟩
  · rw [Text.unitCount_append]
    omega
  · rw [← upToName] at ends
    have := Text.settled_le ends
    rwa [upToName] at this

/-- Completion offers the whole catalog on an open document whose language is served. -/
theorem reply_completion_of_open {config : Config} {store : Store} {uri : Uri}
    {document : Document} (isOpen : store[uri]? = some document)
    (served : config.supports document.languageId = true) (position : Position)
    : (Server.handle config store (.completion uri position)).2.reply
      = .completion (some CompletionItem.all) := by
  rw [Server.reply_completion, Server.served?, isOpen]
  simp [served, Document.completions]

/-- A changed document is served with its last text if its language is served. -/
theorem served?_didChange {config : Config} {store : Store} {uri : Uri} {document : Document}
    (isOpen : store[uri]? = some document)
    (served : config.supports document.languageId = true)
    (version : Int32) (earlier : List String) (text : String)
    : Server.served? config
        (Server.handle config store (.didChange uri version (earlier ++ [text]))).1 uri
      = some (Document.ofText text document.languageId version) := by
  rw [Server.served?, Server.handle_getElem?, isOpen]
  simp [Call.effect, Call.edit?, Document.edited, Document.ofText, served]

/-- Completion and hover agree. In every state that a server reaches, an open document of a
served language is offered a list of items; if the label of any of them is put into the text of
the document as a whole word by the last text of a change, then hovering at each column from the
start of the label to its end answers the documentation of the item for these columns.
-/
theorem hover_documents_completed_item (config : Config) (calls : List Call) (uri : Uri)
    (document : Document) (asked : Position)
    (isOpen : (Server.run config ∅ calls).1[uri]? = some document)
    (served : config.supports document.languageId = true)
    : ∃ items,
        (Server.handle config (Server.run config ∅ calls).1 (.completion uri asked)).2.reply
          = .completion (some items)
        ∧ ∀ item ∈ items,
            ∀ before after : String,
              document.text = before ++ after
              → Text.IsWhole before.toList item.label.toList after.toList
              → ∀ (version : Int32) (earlier : List String) (line start stop column : UInt32),
                  line.toNat = before.toList.count '\n'
                  → start.toNat = Text.unitCount (Text.lastLine before.toList)
                  → stop.toNat = start.toNat + Text.unitCount item.label.toList
                  → start ≤ column
                  → column ≤ stop
                  → (Server.handle config
                        (Server.handle config (Server.run config ∅ calls).1
                          (.didChange uri version
                            (earlier ++ [before ++ item.label ++ after]))).1
                        (.hover uri ⟨line, column⟩)).2.reply
                      = .hover
                          (some
                            {
                              documentation := item.documentation,
                              range := ⟨⟨line, start⟩, ⟨line, stop⟩⟩
                            }) := by
  refine ⟨CompletionItem.all, reply_completion_of_open isOpen served asked, ?_⟩
  intro item offered before after _ whole version earlier line start stop column isLine isStart
    isStop startLe leStop
  obtain ⟨entry, listed, rfl⟩ := List.mem_map.mp offered
  rw [UInt32.le_iff_toNat_le] at startLe leStop
  have inserted : before ++ entry.name ++ after
      = String.ofList (before.toList ++ entry.name.toList ++ after.toList) := by
    apply String.toList_inj.mp
    simp
  have nameEnd : Text.unitCount (Text.lastLine before.toList ++ entry.name.toList)
      = stop.toNat := by
    rw [Text.unitCount_append, ← isStart, isStop]
    rfl
  have startFits : Text.unitCount (Text.lastLine before.toList) < 2 ^ 32 :=
    isStart ▸ start.toNat_lt
  have stopFits : Text.unitCount (Text.lastLine before.toList ++ entry.name.toList) < 2 ^ 32 :=
    nameEnd ▸ stop.toNat_lt
  obtain ⟨rest, stands⟩ := nameAt_of_inserted listed whole ⟨line, column⟩ isLine
    (isStart ▸ startLe) (nameEnd ▸ leStop)
  have startColumn : Text.columnAfter (Text.lastLine before.toList) = start :=
    UInt32.toNat_inj.mp ((Text.columnAfter_toNat startFits).trans isStart.symm)
  have stopColumn
      : Text.columnAfter (Text.lastLine before.toList ++ entry.name.toList) = stop :=
    UInt32.toNat_inj.mp ((Text.columnAfter_toNat stopFits).trans nameEnd)
  have shown := stands.hover? stopFits document.languageId version
  rw [Hover.ofName, startColumn, stopColumn, ← inserted] at shown
  have current := served?_didChange isOpen served version earlier (before ++ entry.name ++ after)
  exact (Server.reply_hover _ _ _ _).trans
    (congrArg Reply.hover ((congrArg (Option.bind · _) current).trans shown))

/-- The label of an offered item, put between a return and the line feed after it by the second of
two texts, is documented at its last column, which is past the return.
-/
theorem hover_documents_item_before_feed
    : let uri : Uri := ⟨"file:///a.js"⟩
      let item : CompletionItem :=
        ⟨"chunk", "array utility", "Splits an array into chunks of the specified size."⟩
      let store := (Server.run .standard ∅ [.didOpen uri "javascript" 1 "😀;\r\n"]).1
      store[uri]? = some (Document.ofText "😀;\r\n" "javascript" 1)
      ∧ Config.standard.supports "javascript" = true
      ∧ (∃ items,
          (Server.handle .standard store (.completion uri ⟨0, 0⟩)).2.reply
            = .completion (some items)
          ∧ item ∈ items)
      ∧ "😀;\r\n" = "😀;\r" ++ "\n"
      ∧ Text.IsWhole "😀;\r".toList item.label.toList "\n".toList
      ∧ (Server.handle .standard
            (Server.handle .standard store
              (.didChange uri 2 (["chunk"] ++ ["😀;\r" ++ item.label ++ "\n"]))).1
            (.hover uri ⟨0, 9⟩)).2.reply
        = .hover
            (some { documentation := item.documentation, range := ⟨⟨0, 4⟩, ⟨0, 9⟩⟩ }) := by
  intro uri item store
  have isOpen : store[uri]? = some (Document.ofText "😀;\r\n" "javascript" 1) := by
    simp [store, Server.run_getElem?, Call.effect]
  have served : Config.standard.supports "javascript" = true := by decide
  have split : "😀;\r\n" = "😀;\r" ++ "\n" := by decide
  have whole : Text.IsWhole "😀;\r".toList item.label.toList "\n".toList := by decide
  obtain ⟨items, answered, documented⟩ :=
    hover_documents_completed_item .standard _ uri _ ⟨0, 0⟩ isOpen served
  have offered : item ∈ items := by
    have all := (reply_completion_of_open isOpen served ⟨0, 0⟩).symm.trans answered
    obtain rfl := Option.some.inj (Reply.completion.inj all)
    exact List.mem_map.mpr
      ⟨⟨"chunk", .array, "Splits an array into chunks of the specified size."⟩,
        Catalog.mem_group.mpr (by decide), by decide⟩
  exact ⟨isOpen, served, ⟨items, answered, offered⟩, split, whole,
    documented _ offered _ _ split whole 2 ["chunk"] 0 4 9 9 (by decide) (by decide) (by decide)
      (by decide) (by decide)⟩

end HintServer
