import Mosaic.Document
import Mosaic.Output.Formats
import Mosaic.Proofs.Embedding.Types
import Mosaic.Proofs.Output.Preorder

/-! The lines of the tree view. Every node is drawn on a line of its own, unless a script declares
a type with a line break in it: the types are put out as they are, and all other labels are made
of escaped text, names and numbers. -/
namespace Mosaic

open Outcome Mosaic.Embedding

/-! ### Texts without line breaks -/

namespace Text

theorem lineBreak_not_mem_toDigits {base : Nat} (large : 1 < base) (n : Nat) :
    '\n' ∉ Nat.toDigits base n := by
  induction n using Nat.strongRecOn with
  | ind n ih =>
    have digit : ∀ k, '\n' ≠ Nat.digitChar k := fun k => (Nat.digitChar_ne '\n' rfl).symm
    rw [Nat.toDigits_eq_if large]
    split
    · exact fun mem => digit n (List.mem_singleton.mp mem)
    · next more =>
      have smaller : n / base < n := Nat.div_lt_self (by omega) large
      simp only [List.mem_append, List.mem_singleton, not_or]
      exact ⟨ih _ smaller, digit _⟩

theorem lineBreak_not_mem_escapeChar (quotes : List Char) (stands : Bool) (c : Char) :
    '\n' ∉ escapeChar quotes stands c := by
  have digits := lineBreak_not_mem_toDigits (show 1 < 16 by decide) c.toNat
  unfold escapeChar codeEscape
  grind

theorem lineBreak_not_mem_escape (s : List Char) : '\n' ∉ escape s := by
  cases s with
  | nil => exact List.not_mem_nil
  | cons c rest =>
    simp only [escape, List.mem_append, List.mem_flatMap, not_or, not_exists, not_and]
    exact ⟨lineBreak_not_mem_escapeChar _ _ c, fun d _ => lineBreak_not_mem_escapeChar _ _ d⟩

end Text

namespace TreeView

theorem lineBreak_not_mem_truncate {limit : Nat} {s : List Char} (h : '\n' ∉ s) :
    '\n' ∉ truncate limit s := by
  unfold truncate
  split
  · simp only [List.mem_append, not_or]
    exact ⟨fun mem => h (List.mem_of_mem_take mem), by decide⟩
  · exact h

theorem lineBreak_not_mem_tokenLabel (kind : TokenKind) (value : String) (range : Range) :
    '\n' ∉ (tokenLabel kind value range).toList := by
  have name : '\n' ∉ kind.name.toList := by cases kind <;> decide
  have number := Text.lineBreak_not_mem_toDigits (show 1 < 10 by decide)
  have text : '\n' ∉ truncate 30 (Text.escape value.toList) :=
    lineBreak_not_mem_truncate (Text.lineBreak_not_mem_escape _)
  simp [tokenLabel, Position.text, name, number, text]

/-- The text of an item that is put out as it is: that of a slot. -/
def Item.raw : Item → List Char
  | .ofSlot _ (.text text) => text.toList
  | _ => []

theorem count_label (item : Item) : item.label.toList.count '\n' = item.raw.count '\n' := by
  have number := Text.lineBreak_not_mem_toDigits (show 1 < 10 by decide)
  have name : ∀ slot : Slot, '\n' ∉ slot.name.toList := by
    intro slot
    cases slot <;> decide
  have counted : ∀ slot count, '\n' ∉ (countLabel slot count).toList := by
    intro slot count
    simp [countLabel, name, number]
  rcases item with token | ⟨slot, token | tokens | tokens | tree | text⟩ | tree
  · exact List.count_eq_zero.mpr (lineBreak_not_mem_tokenLabel _ _ _)
  · exact List.count_eq_zero.mpr (name slot)
  · exact List.count_eq_zero.mpr (counted slot _)
  · exact List.count_eq_zero.mpr (counted slot _)
  · exact List.count_eq_zero.mpr (name slot)
  · change (slot.name ++ " = " ++ text).toList.count '\n' = text.toList.count '\n'
    simp [List.count_eq_zero_of_not_mem (name slot)]
  · have tree : '\n' ∉ ("script tree (" ++ toString tree.count ++ " nodes)").toList := by
      simp [number]
    exact List.count_eq_zero.mpr tree

theorem lineBreak_not_mem_rails {depth : Nat} {indent : String} (h : Rails depth indent) :
    '\n' ∉ indent.toList := by
  induction h with
  | top => decide
  | rail _ ih => simp [ih]
  | blank _ ih => simp [ih]

theorem lineBreak_ne_icon (item : Item) : '\n' ≠ item.icon := by
  have sign : ∀ kind, '\n' ≠ icon kind := by
    intro kind
    cases kind <;> decide
  cases item with
  | ofToken token => exact sign token.kind
  | ofSlot slot payload => exact (by decide : '\n' ≠ '↳')
  | ofScript tree => exact (by decide : '\n' ≠ 'ƒ')

theorem Draws.count_line {entry : Nat × Item} {line : String} (h : Draws entry line) :
    line.toList.count '\n' = entry.2.raw.count '\n' := by
  obtain ⟨indent, joint, rails, joined, rfl⟩ := h
  have clear : '\n' ∉ (indent ++ joint ++ " " ++ entry.2.icon.toString ++ " ").toList := by
    have rail := lineBreak_not_mem_rails rails
    have sign := lineBreak_ne_icon entry.2
    rcases joined with rfl | rfl <;> simp [rail, sign]
  rw [String.toList_append, List.count_append, List.count_eq_zero_of_not_mem clear, Nat.zero_add,
    count_label]

/-- Nodes take up one line each, and one more for every line break in the texts of slots. -/
theorem count_lines {found : List (Nat × Item)} {shown : List String}
    (h : List.Forall₂ Draws found shown) :
    (shown.flatMap fun line => line.toList ++ ['\n']).count '\n' =
      found.length + (found.flatMap fun entry => entry.2.raw).count '\n' := by
  induction h with
  | nil => rfl
  | cons first _ ih =>
    simp only [List.flatMap_cons, List.count_append, List.count_singleton_self, ih,
      first.count_line, List.length_cons]
    omega

theorem lineBreak_not_mem_lines {found : List (Nat × Item)} {shown : List String}
    (h : List.Forall₂ Draws found shown) (unbroken : ∀ entry ∈ found, '\n' ∉ entry.2.raw) :
    ∀ line ∈ shown, '\n' ∉ line.toList := by
  induction h with
  | nil => exact fun line mem => nomatch mem
  | cons first _ ih =>
    obtain ⟨here, others⟩ := List.forall_mem_cons.mp unbroken
    refine List.forall_mem_cons.mpr ⟨?_, ih others⟩
    exact List.count_eq_zero.mp (first.count_line.trans (List.count_eq_zero.mpr here))

/-- The line in front of the nodes. -/
def header (ast : Ast) : String := "⧉ " ++ ast.grammar.name

theorem lineBreak_not_mem_header (ast : Ast) : '\n' ∉ (header ast).toList := by
  have name : ∀ grammar : Grammar, '\n' ∉ grammar.name.toList := by
    intro grammar
    cases grammar <;> decide
  simp [header, name]

theorem toList_render (ast : Ast) :
    (render ast).toList =
      (header ast :: levelLines "" (nodes ast)).flatMap fun line => line.toList ++ ['\n'] := by
  simp [render, lines, header, List.flatMap_map]

theorem count_render (ast : Ast) :
    (render ast).toList.count '\n' = 1 + (items ast).length +
      ((items ast).flatMap fun entry => entry.2.raw).count '\n' := by
  rw [toList_render, List.flatMap_cons, List.count_append, List.count_append,
    List.count_eq_zero_of_not_mem (lineBreak_not_mem_header ast), List.count_singleton_self,
    count_lines (draws_lines ast)]
  omega

/-- Lines that are each ended by a line break, and have none themselves, are found again. -/
theorem splitOn_lines {shown : List String} (h : ∀ line ∈ shown, '\n' ∉ line.toList) :
    (shown.flatMap fun line => line.toList ++ ['\n']).splitOn '\n' =
      shown.map String.toList ++ [[]] := by
  induction shown with
  | nil => rfl
  | cons line rest ih =>
    obtain ⟨first, others⟩ := List.forall_mem_cons.mp h
    rw [List.flatMap_cons, List.append_assoc, List.singleton_append,
      List.splitOn_append_cons_self_of_not_mem first, ih others]
    rfl

/-- Whether no declared type of a script in a tree has a line break in it. -/
def Plain (ast : Ast) : Prop :=
  ∀ top ∈ ast.tokens, ∀ start, Within top start → ∀ type,
    start.ext.get? .type = some (.text type) → '\n' ∉ type.toList

theorem plain_iff {ast : Ast}
    (typed : OnlyTypes ast.tokens) :
    Plain ast ↔ ∀ entry ∈ items ast, '\n' ∉ entry.2.raw := by
  constructor
  · rintro plain ⟨depth, token | ⟨slot, part | tokens | tokens | tree | text⟩ | tree⟩ mem
    case ofSlot.text =>
      obtain ⟨top, here, owner, within, held⟩ := mem_items_slot.mp ⟨depth, mem⟩
      obtain ⟨rfl, -, -⟩ := typed top here owner within slot text held
      exact plain top here owner within text held
    all_goals exact List.not_mem_nil
  · intro unbroken top here start within type held
    obtain ⟨level, mem⟩ := mem_items_slot.mpr ⟨top, here, start, within, held⟩
    exact unbroken _ mem

/-- The output of the tree view has a line for the grammar and one line for every token, every
filled slot and every script tree, exactly if no script declares a type with a line break in it;
and then the lines behind the first are those of the nodes, in preorder. Texts hang in no other
slots than those of the declared types. -/
theorem lines_of_parse {config : Config} {file : FileDescriptor} {content : String} {ast : Ast}
    (h : file.parse .builtin config content = .ok ast) :
    ∃ output, Formats.builtin.serialize "treeviz" ast = .ok output ∧
      (output.toList.count '\n' = 1 + (items ast).length ↔ Plain ast) ∧
      (Plain ast → ∃ shown, List.Forall₂ Draws (items ast) shown ∧
        output.toList.splitOn '\n' = (header ast :: shown).map String.toList ++ [[]]) ∧
      OnlyTypes ast.tokens := by
  obtain ⟨grammar, -, read⟩ := bind_eq_ok.mp h
  have typed := onlyTypes_of_dispatch (mapError_eq_ok.mp read)
  refine ⟨render ast, rfl, ?_, ?_, typed⟩
  · rw [count_render, plain_iff typed]
    simp only [Nat.add_eq_left, List.count_eq_zero, List.mem_flatMap, not_exists, not_and]
  · intro plain
    refine ⟨levelLines "" (nodes ast), draws_lines ast, ?_⟩
    rw [toList_render]
    refine splitOn_lines (List.forall_mem_cons.mpr ⟨lineBreak_not_mem_header ast, ?_⟩)
    exact lineBreak_not_mem_lines (draws_lines ast) ((plain_iff typed).mp plain)

/-- The number of nodes of a document that is read as markup, and of line breaks in the
texts of their slots. -/
def measured (content : String) : Option (Nat × Nat) :=
  ((SourceFile.mk "a.html" ["tpl"]).descriptor.parse .builtin .standard content).toOption.map
    fun ast => ((items ast).length, ((items ast).flatMap fun entry => entry.2.raw).count '\n')

theorem exists_of_measured {content : String} {nodes breaks : Nat}
    (h : measured content = some (nodes, breaks)) :
    ∃ ast, (SourceFile.mk "a.html" ["tpl"]).descriptor.parse .builtin .standard content = .ok ast ∧
      (items ast).length = nodes ∧ (render ast).toList.count '\n' = 1 + nodes + breaks := by
  obtain ⟨ast, read, same⟩ := exists_of_toOption_bind ((Option.map_eq_bind ..).symm.trans h)
  cases same
  exact ⟨ast, read, rfl, count_render ast⟩

theorem lines_of_parse_script :
    ∃ ast output shown, (SourceFile.mk "a.html" ["tpl"]).descriptor.parse .builtin .standard
        "<p style='a:\nb'>\n<script type='\nText/X\n'>\n</script>" = .ok ast ∧
      Formats.builtin.serialize "treeviz" ast = .ok output ∧ (items ast).length = 15 ∧
      List.Forall₂ Draws (items ast) shown ∧
      output.toList.splitOn '\n' = (header ast :: shown).map String.toList ++ [[]] := by
  have seen : measured "<p style='a:\nb'>\n<script type='\nText/X\n'>\n</script>" =
      some (15, 0) := by
    decide +kernel
  obtain ⟨ast, read, nodes, lines⟩ := exists_of_measured seen
  obtain ⟨output, written, counted, split, -⟩ := lines_of_parse read
  cases written
  have plain : Plain ast := counted.mp (by rw [nodes]; exact lines)
  obtain ⟨shown, draws, split⟩ := split plain
  exact ⟨ast, _, shown, read, rfl, nodes, draws, split⟩

/-- A line break within a declared type goes into the line of its slot: behind the line for the
grammar there are nine lines for eight nodes. -/
theorem not_lines_of_brokenType :
    ∃ ast output, (SourceFile.mk "a.html" ["tpl"]).descriptor.parse .builtin .standard
        "<script type=\"a\nb\"></script>" = .ok ast ∧
      Formats.builtin.serialize "treeviz" ast = .ok output ∧
      (items ast).length = 8 ∧ output.toList.count '\n' = 1 + 9 := by
  have seen : measured "<script type=\"a\nb\"></script>" = some (8, 1) := by decide +kernel
  obtain ⟨ast, read, nodes, lines⟩ := exists_of_measured seen
  exact ⟨ast, _, read, rfl, nodes, lines⟩

end TreeView

end Mosaic
