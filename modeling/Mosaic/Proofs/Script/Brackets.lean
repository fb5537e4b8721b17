import Mosaic.Proofs.Script.Tree

/-! Nested brackets. The brackets of a script are a word of their own, and a script is gathered into
a tree if and only if that word is properly nested. A word that can still go on to a nested one is
one that a stack of open brackets reads through; the frames of a reading are such a stack, and they
know where their brackets stand. -/
namespace Mosaic.Script

/-- Whether a lexeme opens or closes a group. -/
def Role.isBracket : Role → Bool
  | .leaf _ => false
  | .opener _ => true
  | .closer _ => true

/-- The brackets among some lexemes. -/
def brackets (found : List Lexeme) : List Role := (found.map Lexeme.role).filter Role.isBracket

/-- Every bracket is closed by its mate, and none is closed before the ones inside it. -/
inductive Nested : List Role → Prop
  | nil : Nested []
  | pair {c d : Char} {inner rest : List Role} : Mates c d → Nested inner → Nested rest →
    Nested (.opener c :: (inner ++ .closer d :: rest))

/-- A word of brackets that a nested word can begin with. -/
def Viable (word : List Role) : Prop := ∃ more, Nested (word ++ more)

/-- The brackets that are open behind a word, from the innermost one on, when those of `stack` are
open in front of it; no stack if a bracket of the word closes none or a wrong one. -/
def openAfter (stack : List Char) : List Role → Option (List Char)
  | [] => some stack
  | .leaf _ :: rest => openAfter stack rest
  | .opener c :: rest => openAfter (c :: stack) rest
  | .closer c :: rest =>
    match stack with
    | [] => none
    | opener :: outer => if closerOf opener = c then openAfter outer rest else none

theorem openAfter_append (stack : List Char) (word more : List Role) :
    openAfter stack (word ++ more) =
      (openAfter stack word).bind fun inner => openAfter inner more := by
  induction word generalizing stack with
  | nil => rfl
  | cons role rest ih =>
    cases role with
    | leaf kind => exact ih stack
    | opener c => exact ih (c :: stack)
    | closer c =>
      cases stack with
      | nil => rfl
      | cons opener outer =>
        simp only [List.cons_append, openAfter]
        split
        · exact ih outer
        · rfl

theorem Nested.openAfter_append {word : List Role} (h : Nested word) (stack : List Char)
    (more : List Role) : openAfter stack (word ++ more) = openAfter stack more := by
  induction h generalizing stack more with
  | nil => rfl
  | pair mates inner rest ih ih' =>
    simp only [List.cons_append, List.append_assoc, openAfter]
    rw [ih, openAfter, if_pos mates.eq_closerOf, ih']

theorem Nested.openAfter_eq {word : List Role} (h : Nested word) : openAfter [] word = some [] := by
  have through := h.openAfter_append [] []
  rwa [List.append_nil] at through

theorem Nested.append {front back : List Role} (h : Nested front) (more : Nested back) :
    Nested (front ++ back) := by
  induction h with
  | nil => exact more
  | pair mates inner rest ih ih' =>
    have longer := Nested.pair mates inner ih'
    simpa only [List.cons_append, List.append_assoc] using longer

theorem Viable.exists_openAfter {word : List Role} (h : Viable word) :
    ∃ stack, openAfter [] word = some stack := by
  obtain ⟨more, nested⟩ := h
  have through := nested.openAfter_eq
  rw [openAfter_append] at through
  obtain ⟨stack, read, -⟩ := Option.bind_eq_some_iff.mp through
  exact ⟨stack, read⟩

@[simp] theorem brackets_append (front back : List Lexeme) :
    brackets (front ++ back) = brackets front ++ brackets back := by
  simp only [brackets, List.map_append, List.filter_append]

@[simp] theorem brackets_opener (c : Char) (text : List Char) (rest : List Lexeme) :
    brackets (⟨.opener c, text⟩ :: rest) = .opener c :: brackets rest := rfl

@[simp] theorem brackets_closer (c : Char) (text : List Char) (rest : List Lexeme) :
    brackets (⟨.closer c, text⟩ :: rest) = .closer c :: brackets rest := rfl

@[simp] theorem brackets_nil : brackets [] = [] := rfl

/-- The lexemes are gathered to the end if and only if they close what is open, and only what is
open. -/
theorem exists_nest_iff {ending : Option Cause} {offset : Nat} {stack : List Frame}
    {body : List Node} {found : List Lexeme} :
    (∃ tree, nest ending offset stack body found = .ok tree) ↔
      ending = none ∧ openAfter (stack.map Frame.opener) (brackets found) = some [] := by
  induction found generalizing offset stack body with
  | nil =>
    cases ending with
    | some cause => simp [nest]
    | none => cases stack <;> simp [nest, openAfter]
  | cons lexeme rest ih =>
    rcases lexeme with ⟨role, text⟩
    cases role with
    | leaf kind => exact ih
    | opener c => exact ih
    | closer c =>
      cases stack with
      | nil => simp [nest, openAfter]
      | cons frame outer =>
        simp only [nest, brackets_closer, List.map_cons, openAfter]
        split
        · exact ih
        · simp

theorem exists_nest_of_nested {found : List Lexeme} (h : Nested (brackets found)) :
    ∃ tree, nest none 0 [] [] found = .ok tree :=
  exists_nest_iff.mpr ⟨rfl, by rw [List.map_nil, h.openAfter_eq]⟩

mutual

/-- The leaves and brackets of a node. -/
def Node.lexemes : Node → List Lexeme
  | .leaf kind text => [⟨.leaf kind, text.toList⟩]
  | .group opener body closer =>
    ⟨.opener opener, [opener]⟩ :: (Node.lexemesAll body ++ [⟨.closer closer, [closer]⟩])

/-- The leaves and brackets of some nodes. -/
def Node.lexemesAll : List Node → List Lexeme
  | [] => []
  | node :: rest => node.lexemes ++ Node.lexemesAll rest

end

mutual

/-- Every group in a node is closed by the mate of its opening bracket. -/
def Node.Mated : Node → Prop
  | .leaf _ _ => True
  | .group opener body closer => Mates opener closer ∧ Node.MatedAll body

/-- Every group in some nodes is closed by the mate of its opening bracket. -/
def Node.MatedAll : List Node → Prop
  | [] => True
  | node :: rest => node.Mated ∧ Node.MatedAll rest

end

theorem lexemesAll_append (front back : List Node) :
    Node.lexemesAll (front ++ back) = Node.lexemesAll front ++ Node.lexemesAll back := by
  induction front with
  | nil => rfl
  | cons node rest ih => simp only [List.cons_append, Node.lexemesAll, ih, List.append_assoc]

theorem matedAll_append {front back : List Node} :
    Node.MatedAll (front ++ back) ↔ Node.MatedAll front ∧ Node.MatedAll back := by
  induction front with
  | nil => simp only [List.nil_append, Node.MatedAll, true_and]
  | cons node rest ih => simp only [List.cons_append, Node.MatedAll, ih, and_assoc]

mutual

theorem Node.Mated.nested {node : Node} (h : node.Mated) : Nested (brackets node.lexemes) := by
  cases node with
  | leaf kind text =>
    rw [Node.lexemes]
    exact .nil
  | group opener body closer =>
    rw [Node.Mated] at h
    rw [Node.lexemes]
    simp only [brackets_opener, brackets_append, brackets_closer, brackets_nil]
    exact .pair h.1 (Node.MatedAll.nested h.2) .nil

/-- The brackets of nodes whose groups are closed by mates are nested. -/
theorem Node.MatedAll.nested {nodes : List Node} (h : Node.MatedAll nodes) :
    Nested (brackets (Node.lexemesAll nodes)) := by
  cases nodes with
  | nil =>
    rw [Node.lexemesAll]
    exact .nil
  | cons node rest =>
    rw [Node.MatedAll] at h
    rw [Node.lexemesAll, brackets_append]
    exact (Node.Mated.nested h.1).append (Node.MatedAll.nested h.2)

end

/-- The lexemes of a tree that is being gathered. -/
def gatheredLexemes : List Frame → List Node → List Lexeme
  | [], body => Node.lexemesAll body.reverse
  | frame :: outer, body =>
    gatheredLexemes outer frame.before ++ ⟨.opener frame.opener, [frame.opener]⟩ ::
      Node.lexemesAll body.reverse

theorem gatheredLexemes_cons (stack : List Frame) (node : Node) (body : List Node) :
    gatheredLexemes stack (node :: body) = gatheredLexemes stack body ++ node.lexemes := by
  have behind : Node.lexemesAll (node :: body).reverse =
      Node.lexemesAll body.reverse ++ node.lexemes := by
    simp only [List.reverse_cons, lexemesAll_append, Node.lexemesAll, List.append_nil]
  cases stack with
  | nil => exact behind
  | cons frame outer =>
    simp only [gatheredLexemes, behind, List.append_assoc, List.cons_append]

/-- A tree that was gathered has the lexemes that it was gathered from. -/
theorem nest_lexemes {offset : Nat} {stack : List Frame} {body : List Node} {found : List Lexeme}
    {tree : Tree} (known : ∀ lexeme ∈ found, lexeme.Bracketed)
    (h : nest none offset stack body found = .ok tree) :
    Node.lexemesAll tree.body = gatheredLexemes stack body ++ found := by
  induction found generalizing offset stack body with
  | nil =>
    cases stack with
    | nil =>
      cases h
      exact (List.append_nil _).symm
    | cons frame outer => cases h
  | cons lexeme rest ih =>
    rcases lexeme with ⟨role, text⟩
    obtain ⟨bracketed, further⟩ := List.forall_mem_cons.mp known
    cases role with
    | leaf kind =>
      rw [ih further h, gatheredLexemes_cons]
      simp only [Node.lexemes, String.toList_ofList, List.append_assoc, List.singleton_append]
    | opener c =>
      obtain rfl : text = [c] := bracketed.text_of_opener rfl
      rw [ih further h]
      simp only [gatheredLexemes, List.reverse_nil, Node.lexemesAll, List.append_assoc,
        List.singleton_append]
    | closer c =>
      obtain rfl : text = [c] := bracketed.text_of_closer rfl
      cases stack with
      | nil => cases h
      | cons frame outer =>
        simp only [nest] at h
        split at h
        · rw [ih further h, gatheredLexemes_cons]
          simp only [gatheredLexemes, Node.lexemes, List.append_assoc, List.cons_append,
            List.nil_append]
        · cases h

theorem nest_mated {ending : Option Cause} {offset : Nat} {stack : List Frame} {body : List Node}
    {found : List Lexeme} {tree : Tree} (inner : Node.MatedAll body.reverse)
    (outer : ∀ frame ∈ stack, isOpener frame.opener = true ∧ Node.MatedAll frame.before.reverse)
    (known : ∀ lexeme ∈ found, lexeme.Bracketed)
    (h : nest ending offset stack body found = .ok tree) : Node.MatedAll tree.body := by
  have grown : ∀ {node : Node} {nodes : List Node}, node.Mated → Node.MatedAll nodes.reverse →
      Node.MatedAll (node :: nodes).reverse := by
    intro node nodes own others
    simp only [List.reverse_cons, matedAll_append, Node.MatedAll, and_true]
    exact ⟨others, own⟩
  induction found generalizing offset stack body with
  | nil =>
    cases ending with
    | some cause => cases h
    | none =>
      cases stack with
      | nil =>
        cases h
        exact inner
      | cons frame rest => cases h
  | cons lexeme rest ih =>
    rcases lexeme with ⟨role, text⟩
    obtain ⟨bracketed, behind⟩ := List.forall_mem_cons.mp known
    cases role with
    | leaf kind =>
      have own : (Node.leaf kind (String.ofList text)).Mated := by simp only [Node.Mated]
      exact ih (grown own inner) outer behind h
    | opener c =>
      have empty : Node.MatedAll [].reverse := by simp only [List.reverse_nil, Node.MatedAll]
      have opens := bracketed.isOpener rfl
      exact ih empty (List.forall_mem_cons.mpr ⟨⟨opens, inner⟩, outer⟩) behind h
    | closer c =>
      cases stack with
      | nil => cases h
      | cons frame others =>
        obtain ⟨⟨opens, before⟩, further⟩ := List.forall_mem_cons.mp outer
        simp only [nest] at h
        split at h
        · next mate =>
          have own : (Node.group frame.opener body.reverse c).Mated := by
            simp only [Node.Mated]
            rw [← mate]
            exact ⟨mates_closerOf opens, inner⟩
          exact ih (grown own before) further behind h
        · cases h

theorem parse_eq_ok {source : String} {tree : Tree} :
    parse source = .ok tree ↔
      nest (lexemes true source.toList).2 0 [] [] (lexemes true source.toList).1 = .ok tree := by
  rw [parse, Outcome.mapError_eq_ok, read]

/-- A tree has the lexemes that its script is read as. -/
theorem lexemes_of_parse {source : String} {tree : Tree} (h : parse source = .ok tree) :
    lexemes true source.toList = (Node.lexemesAll tree.body, none) ∧
      nest none 0 [] [] (Node.lexemesAll tree.body) = .ok tree := by
  have gathered := parse_eq_ok.mp h
  generalize read : lexemes true source.toList = reading at gathered ⊢
  obtain ⟨found, ending⟩ := reading
  obtain rfl : ending = none := ending_of_nest gathered
  have same : Node.lexemesAll tree.body = found := nest_lexemes (bracketed_of_lexemes read) gathered
  rw [same]
  exact ⟨rfl, gathered⟩

/-- Every group of a tree is closed by the mate of its opening bracket. -/
theorem mated_of_parse {source : String} {tree : Tree} (h : parse source = .ok tree) :
    Node.MatedAll tree.body := by
  have empty : Node.MatedAll [].reverse := by simp only [List.reverse_nil, Node.MatedAll]
  exact nest_mated empty (List.forall_mem_nil _) (bracketed_of_lexemes rfl) (parse_eq_ok.mp h)

/-- Behind the lexemes `read`, the brackets of these frames are open: each stands where its frame
says, and everything between two of them is closed. -/
inductive Open : List Frame → List Lexeme → Prop
  | nil {read : List Lexeme} : Nested (brackets read) → Open [] read
  | cons {frame : Frame} {outer : List Frame} {before inner : List Lexeme} {text : List Char} :
    Open outer before → isOpener frame.opener = true →
    frame.offset = Text.bytes (before.flatMap Lexeme.text) → Nested (brackets inner) →
      Open (frame :: outer) (before ++ ⟨.opener frame.opener, text⟩ :: inner)

theorem Open.append {stack : List Frame} {read more : List Lexeme} (h : Open stack read)
    (nested : Nested (brackets more)) : Open stack (read ++ more) := by
  cases h with
  | nil whole =>
    refine .nil ?_
    rw [brackets_append]
    exact whole.append nested
  | cons outer opens offset inner =>
    rw [List.append_assoc, List.cons_append]
    refine .cons outer opens offset ?_
    rw [brackets_append]
    exact inner.append nested

theorem Open.close {frame : Frame} {outer : List Frame} {read : List Lexeme} {c : Char}
    {text : List Char} (h : Open (frame :: outer) read) (mate : closerOf frame.opener = c) :
    Open outer (read ++ [⟨.closer c, text⟩]) := by
  subst mate
  cases h with
  | cons front opens offset inner =>
    rw [List.append_assoc, List.cons_append]
    apply front.append
    simp only [brackets_opener, brackets_append, brackets_closer, brackets_nil]
    exact .pair (mates_closerOf opens) inner .nil

theorem Open.openAfter_eq {stack : List Frame} {read : List Lexeme} (h : Open stack read) :
    openAfter [] (brackets read) = some (stack.map Frame.opener) := by
  induction h with
  | nil whole => exact whole.openAfter_eq
  | cons outer opens offset inner ih =>
    simp only [brackets_append, brackets_opener, openAfter_append, ih, Option.bind_some]
    rw [openAfter, List.map_cons]
    simpa only [List.append_nil, openAfter] using inner.openAfter_append _ []

/-- A word closes the brackets of a stack one after the other, with nested words between. -/
inductive Closes : List Char → List Role → Prop
  | nil {word : List Role} : Nested word → Closes [] word
  | cons {c d : Char} {outer : List Char} {inner rest : List Role} : Mates c d → Nested inner →
    Closes outer rest → Closes (c :: outer) (inner ++ .closer d :: rest)

theorem Closes.pair {stack : List Char} {c d : Char} {inner rest : List Role} (mates : Mates c d)
    (nested : Nested inner) (h : Closes stack rest) :
    Closes stack (.opener c :: (inner ++ .closer d :: rest)) := by
  cases h with
  | nil word => exact .nil (.pair mates nested word)
  | @cons opener closer outer inner' rest' others first later =>
    have more : Closes (opener :: outer)
        ((.opener c :: (inner ++ .closer d :: inner')) ++ .closer closer :: rest') :=
      .cons others (.pair mates nested first) later
    simpa only [List.cons_append, List.append_assoc] using more

/-- A word that closes what is open makes the brackets so far a nested word. -/
theorem Open.nested_append {stack : List Frame} {read : List Lexeme} (h : Open stack read)
    {word : List Role} (closes : Closes (stack.map Frame.opener) word) :
    Nested (brackets read ++ word) := by
  induction h generalizing word with
  | nil whole =>
    cases closes with
    | nil nested => exact whole.append nested
  | cons outer opens offset inner ih =>
    cases closes with
    | cons mates first later =>
      have longer := ih (later.pair mates (inner.append first))
      simpa only [brackets_append, brackets_opener, List.append_assoc, List.cons_append]
        using longer

theorem Open.viable {stack : List Frame} {read : List Lexeme} (h : Open stack read) :
    Viable (brackets read) := by
  suffices closed : ∃ word, Closes (stack.map Frame.opener) word by
    obtain ⟨word, closes⟩ := closed
    exact ⟨word, h.nested_append closes⟩
  induction h with
  | nil whole => exact ⟨[], .nil .nil⟩
  | cons outer opens offset inner ih =>
    obtain ⟨word, closes⟩ := ih
    exact ⟨_, .cons (mates_closerOf opens) .nil closes⟩

/-- A closing bracket that does not close the innermost open one ends every hope for a nested
word. -/
theorem Open.not_viable {stack : List Frame} {read : List Lexeme} {c : Char} {text : List Char}
    (h : Open stack read) (wrong : ∀ frame, stack.head? = some frame → closerOf frame.opener ≠ c) :
    ¬ Viable (brackets (read ++ [⟨.closer c, text⟩])) := by
  intro viable
  obtain ⟨inner, through⟩ := viable.exists_openAfter
  simp only [brackets_append, brackets_closer, brackets_nil, openAfter_append, h.openAfter_eq,
    Option.bind_some] at through
  cases stack with
  | nil => cases through
  | cons frame outer =>
    simp only [List.map_cons, openAfter, if_neg (wrong frame rfl)] at through
    cases through

/-- What is to blame where the lexemes `found` of a script, read up to its end or to a fault
`ending`, are no tree, and the lexemes in front of it: the first lexical fault or the first bracket
with which no nested word goes on, whichever comes first; else the innermost bracket that is
open. -/
inductive Blames (found : List Lexeme) : Option Cause → List Lexeme → Cause → Prop
  | lexical {cause : Cause} : Viable (brackets found) → Blames found (some cause) found cause
  | unexpected {ending : Option Cause} {before after : List Lexeme} {c : Char} {text : List Char} :
    found = before ++ ⟨.closer c, text⟩ :: after → Viable (brackets before) →
    ¬ Viable (brackets (before ++ [⟨.closer c, text⟩])) → Nested (brackets before) →
    Blames found ending before (.unexpectedCloser c)
  | mismatched {ending : Option Cause} {before outer inner after : List Lexeme} {opener c : Char}
    {sign text : List Char} :
    found = before ++ ⟨.closer c, text⟩ :: after → Viable (brackets before) →
    ¬ Viable (brackets (before ++ [⟨.closer c, text⟩])) →
    before = outer ++ ⟨.opener opener, sign⟩ :: inner → Nested (brackets inner) →
    Blames found ending before (.mismatchedCloser opener c)
  | unclosed {before inner : List Lexeme} {opener : Char} {sign : List Char} :
    Viable (brackets found) → found = before ++ ⟨.opener opener, sign⟩ :: inner →
    Nested (brackets inner) → Blames found none before (.unclosedOpener opener)

theorem Open.blames_closer {ending : Option Cause} {read rest : List Lexeme} {c : Char}
    {text : List Char} (h : Open [] read) :
    Blames (read ++ ⟨.closer c, text⟩ :: rest) ending read (.unexpectedCloser c) := by
  have viable := h.viable
  have stuck : ¬ Viable (brackets (read ++ [⟨.closer c, text⟩])) := by
    apply h.not_viable
    rintro _ ⟨⟩
  cases h with
  | nil whole => exact .unexpected rfl viable stuck whole

theorem Open.blames_mate {ending : Option Cause} {frame : Frame} {outer : List Frame}
    {read rest : List Lexeme} {c : Char} {text : List Char} (h : Open (frame :: outer) read)
    (wrong : closerOf frame.opener ≠ c) :
    Blames (read ++ ⟨.closer c, text⟩ :: rest) ending read
      (.mismatchedCloser frame.opener c) := by
  have viable := h.viable
  have stuck : ¬ Viable (brackets (read ++ [⟨.closer c, text⟩])) := by
    apply h.not_viable
    rintro _ ⟨⟩
    exact wrong
  cases h with
  | cons front opens offset inner => exact .mismatched rfl viable stuck rfl inner

theorem Open.blames_opener {frame : Frame} {outer : List Frame} {read : List Lexeme}
    (h : Open (frame :: outer) read) :
    ∃ before, Blames read none before (.unclosedOpener frame.opener) ∧
      frame.offset = Text.bytes (before.flatMap Lexeme.text) := by
  have viable := h.viable
  cases h with
  | cons front opens offset inner => exact ⟨_, .unclosed viable rfl inner, offset⟩

theorem nest_blames {ending : Option Cause} {read : List Lexeme} {stack : List Frame}
    {body : List Node} {found : List Lexeme} {fault : Fault} (opened : Open stack read)
    (known : ∀ lexeme ∈ found, lexeme.Bracketed)
    (h : nest ending (Text.bytes (read.flatMap Lexeme.text)) stack body found = .error fault) :
    ∃ before cause, Blames (read ++ found) ending before cause ∧
      fault = ⟨cause, Text.bytes (before.flatMap Lexeme.text)⟩ := by
  induction found generalizing read stack body with
  | nil =>
    rw [List.append_nil]
    cases ending with
    | some cause =>
      cases h
      exact ⟨read, cause, .lexical opened.viable, rfl⟩
    | none =>
      cases stack with
      | nil => cases h
      | cons frame outer =>
        cases h
        obtain ⟨before, blames, offset⟩ := opened.blames_opener
        exact ⟨before, _, blames, by rw [offset]⟩
  | cons lexeme rest ih =>
    rcases lexeme with ⟨role, text⟩
    obtain ⟨bracketed, behind⟩ := List.forall_mem_cons.mp known
    have size : Text.bytes (read.flatMap Lexeme.text) + Text.bytes text =
        Text.bytes ((read ++ [(⟨role, text⟩ : Lexeme)]).flatMap Lexeme.text) := by
      simp only [List.flatMap_append, Text.bytes_append, List.flatMap_singleton]
    have split : read ++ ⟨role, text⟩ :: rest = (read ++ [⟨role, text⟩]) ++ rest := by
      rw [List.append_assoc, List.singleton_append]
    cases role with
    | leaf kind =>
      rw [nest, size] at h
      rw [split]
      exact ih (opened.append .nil) behind h
    | opener c =>
      rw [nest, size] at h
      rw [split]
      have nothing : Nested (brackets []) := .nil
      exact ih (.cons opened (bracketed.isOpener rfl) rfl nothing) behind h
    | closer c =>
      cases stack with
      | nil =>
        cases h
        exact ⟨read, _, opened.blames_closer, rfl⟩
      | cons frame outer =>
        simp only [nest] at h
        split at h
        · next mate =>
          rw [size] at h
          rw [split]
          exact ih (opened.close mate) behind h
        · next wrong =>
          cases h
          exact ⟨read, _, opened.blames_mate wrong, rfl⟩

/-- A reading that fails does so at what is to blame. -/
theorem read_blames {source : List Char} {fault : Fault} (h : read source = .error fault) :
    ∃ before cause, Blames (lexemes true source).1 (lexemes true source).2 before cause ∧
      fault = ⟨cause, Text.bytes (before.flatMap Lexeme.text)⟩ := by
  have nothing : Nested (brackets []) := .nil
  exact nest_blames (.nil nothing) (bracketed_of_lexemes rfl) h

end Mosaic.Script
