import Mosaic.Proofs.Style.Piece
import Mosaic.Proofs.Style.Wrapper

/-! How a style sheet ends. A right brace at its end is a piece of its own, unless a template
region reaches to the end. -/
namespace Mosaic.Style

theorem ne_rightBrace_of_word {p : Char → Bool} {c : Char} {rest : List Char} (plain : c ≠ '\x7d')
    (stops : p '\x7d' = false) : (c :: rest.takeWhile p).getLast? ≠ some '\x7d' := by
  intro last
  rcases List.mem_cons.mp (List.mem_of_getLast? last) with same | mem
  · exact plain same.symm
  · have inside := List.all_eq_true.mp List.all_takeWhile _ mem
    rw [stops] at inside
    cases inside

theorem stringLength?_last {quote : Char} {s : List Char} {n : Nat}
    (h : stringLength? quote s = some n) : (s.take n).getLast? = some quote := by
  fun_induction stringLength? quote s generalizing n with
  | case1 => cases h
  | case2 d rest ih =>
    obtain ⟨m, found, rfl⟩ := Option.map_eq_some_iff.mp h
    rw [List.take_succ_cons, List.take_succ_cons, List.getLast?_cons, List.getLast?_cons, ih found]
    rfl
  | case3 => cases h
  | case4 rest =>
    cases h
    rfl
  | case5 c rest _ _ _ ih =>
    obtain ⟨m, found, rfl⟩ := Option.map_eq_some_iff.mp h
    rw [List.take_succ_cons, List.getLast?_cons, ih found]
    rfl

theorem endOf?_last {first last : Char} {s : List Char} {n : Nat}
    (h : Text.endOf? [first, last] s = some n) : (s.take n).getLast? = some last := by
  obtain ⟨m, found, rfl⟩ := Option.map_eq_some_iff.mp h
  have word := Text.take_of_prefix (Text.isPrefixOf_of_indexOf? found)
  rw [List.take_add, word, List.getLast?_append]
  rfl

theorem slashMark_last {rest : List Char} {mark : Mark} {n : Nat}
    (h : slashMark rest = .ok (mark, n)) : ('/' :: rest.take n).getLast? = some '/' := by
  unfold slashMark at h
  split at h
  · next body =>
    split at h
    · next m closed =>
      cases h
      rw [List.take_succ_cons, List.getLast?_cons, List.getLast?_cons, endOf?_last closed]
      rfl
    · cases h
  · cases h
    rfl

/-- Only a right brace ends with one. -/
theorem markAt_last {c : Char} {rest : List Char} {mark : Mark} {n : Nat}
    (h : markAt c rest = .ok (mark, n)) (last : (c :: rest.take n).getLast? = some '\x7d') :
    mark = .rightBrace := by
  have single : n = 0 → c = '\x7d' := by
    rintro rfl
    exact Option.some.inj last
  have word (p : Char → Bool) (plain : c ≠ '\x7d') (stops : p '\x7d' = false) :
      n ≠ (rest.takeWhile p).length := by
    intro all
    rw [all, Text.take_length_takeWhile] at last
    exact ne_rightBrace_of_word plain stops last
  have slash : c = '/' → slashMark rest ≠ .ok (mark, n) := by
    rintro rfl same
    rw [slashMark_last same] at last
    cases last
  have string : isQuote c = true → n ≠ (stringLength? c rest).getD 0 := by
    rintro plain rfl
    cases found : stringLength? c rest with
    | none =>
      rw [found] at single
      rw [single rfl] at plain
      cases plain
    | some m =>
      rw [found, Option.getD_some, List.getLast?_cons, stringLength?_last found] at last
      cases last
      cases plain
  unfold markAt at h
  grind [isSpace, isWordPart]

theorem plainLexemes_last {s : List Char} {found : List Lexeme} (last : s.getLast? = some '\x7d')
    (h : plainLexemes s = (found, none)) :
    ∃ front, found = front ++ [⟨.rightBrace, ['\x7d']⟩] := by
  fun_induction plainLexemes s generalizing found with
  | case1 => cases last
  | case2 => cases h
  | case3 c rest mark n marked more _ later ih =>
    cases h
    rw [← List.take_append_drop n rest, ← List.cons_append, List.getLast?_append] at last
    cases behind : (rest.drop n).getLast? with
    | some d =>
      rw [behind] at last ih
      obtain ⟨front, rfl⟩ := ih last later
      exact ⟨_, (List.cons_append ..).symm⟩
    | none =>
      rw [behind, Option.none_or] at last
      rw [List.getLast?_eq_none_iff.mp behind, plainLexemes] at later
      cases later
      have brace := markAt_last marked last
      subst brace
      have text : c :: rest.take n = ['\x7d'] := (markAt_spelled marked).2 _ rfl
      rw [text]
      exact ⟨[], rfl⟩

variable {t : Template.Scanner} {s : List Char} {found : List Lexeme}

theorem markAt_not_template {c : Char} {rest : List Char} {n : Nat} :
    markAt c rest ≠ .ok (.template, n) := by
  have slash : slashMark rest ≠ .ok (.template, n) := by
    unfold slashMark
    grind
  unfold markAt
  grind

/-- A template region is longer than one character, for it has two delimiters. -/
def Lexeme.Roomy (lexeme : Lexeme) : Prop := lexeme.mark = .template → 2 ≤ lexeme.text.length

theorem lexemes_roomy {cause : Option Cause} (h : lexemes t s = (found, cause)) :
    ∀ lexeme ∈ found, lexeme.Roomy := by
  refine forall_mem_lexemes ?_ ?_ h
  · rintro c rest mark n marked rfl
    exact absurd marked markAt_not_template
  · intro c rest n opens measured _
    obtain ⟨-, some, le⟩ := Template.Scanner.scanAfter_spec opens measured
    rw [List.length_cons, List.length_take, Nat.min_eq_left le]
    exact Nat.succ_le_succ some

/-- The right brace at the end of a sheet is its last lexeme, or part of a template region. -/
theorem lexemes_last (last : s.getLast? = some '\x7d') (h : lexemes t s = (found, none)) :
    ∃ front final, found = front ++ [final] ∧
      (final = ⟨.rightBrace, ['\x7d']⟩ ∨ final.mark = .template) := by
  fun_induction lexemes t s generalizing found with
  | case1 => cases last
  | case2 => cases h
  | case3 c rest opens n _ more _ later ih =>
    cases h
    rw [← List.take_append_drop n rest, ← List.cons_append, List.getLast?_append] at last
    cases behind : (rest.drop n).getLast? with
    | some d =>
      rw [behind] at last ih
      obtain ⟨front, final, rfl, kind⟩ := ih last later
      exact ⟨_, final, (List.cons_append ..).symm, kind⟩
    | none =>
      rw [List.getLast?_eq_none_iff.mp behind, lexemes_nil] at later
      cases later
      exact ⟨[], _, rfl, .inr rfl⟩
  | case4 => cases h
  | case5 c rest closed n plain read more _ later =>
    rename_i ih
    cases h
    rw [← List.take_append_drop n rest, ← List.cons_append, List.getLast?_append] at last
    cases behind : (rest.drop n).getLast? with
    | some d =>
      rw [behind] at last ih
      obtain ⟨front, final, rfl, kind⟩ := ih last later
      exact ⟨plain ++ front, final, (List.append_assoc ..).symm, kind⟩
    | none =>
      rw [behind, Option.none_or] at last
      rw [List.getLast?_eq_none_iff.mp behind, lexemes_nil] at later
      cases later
      obtain ⟨front, rfl⟩ := plainLexemes_last last read
      exact ⟨front, _, List.append_nil _, .inl rfl⟩

/-- What a lexeme hands out last is what the pieces end with, if it holds nothing back. -/
theorem piecesFrom_last {final : Lexeme} {piece : Piece} (r : Reading) (front : List Lexeme)
    (hands : ∀ r : Reading, (r.step final false).1 = r.held ++ [piece] ∧
      (r.step final false).2.held = []) :
    ∃ before, piecesFrom r (front ++ [final]) = before ++ [piece] := by
  induction front generalizing r with
  | nil =>
    obtain ⟨handed, nothing⟩ := hands r
    refine ⟨r.held, ?_⟩
    change (r.step final false).1 ++ (r.step final false).2.held = _
    rw [handed, nothing, List.append_nil]
  | cons lexeme front ih =>
    obtain ⟨before, rest⟩ := ih (r.step lexeme (opensRule (front ++ [final]))).2
    exact ⟨_, (congrArg _ rest).trans (List.append_assoc ..).symm⟩

/-- The pieces of a wrapped text. It is parted from the wrapper, or a template region takes one of
the three characters of the wrapper in, and at least one character more. -/
inductive Wrapped : List Piece → Prop
  | apart (middle : List Piece) :
    Wrapped (⟨.selector, ['*']⟩ :: ⟨.leftBrace, ['\x7b']⟩ ::
      (middle ++ [⟨.rightBrace, ['\x7d']⟩]))
  | overStar {text : List Char} (rest : List Piece) :
    2 ≤ text.length → Wrapped (⟨.template, text⟩ :: rest)
  | overBrace {text : List Char} (rest : List Piece) :
    2 ≤ text.length → Wrapped (⟨.selector, ['*']⟩ :: ⟨.template, text⟩ :: rest)
  | overEnd {text : List Char} (front : List Piece) :
    2 ≤ text.length → Wrapped (front ++ [⟨.template, text⟩])

theorem lexemes_of_opens (opens : t.opens s = true) (h : lexemes t s = (found, none)) :
    ∃ text more, found = ⟨.template, text⟩ :: more := by
  cases s with
  | nil => exact nomatch (Template.Scanner.not_opens_nil t).symm.trans opens
  | cons c rest =>
    rw [lexemes, if_pos opens] at h
    split at h
    · cases h
    · exact ⟨_, _, (Prod.mk.inj h).1.symm⟩

/-- A star in front of a template region is a lexeme of its own. -/
theorem lexemes_star (star : ¬ t.opens ('*' :: s) = true) (opens : t.opens s = true) :
    lexemes t ('*' :: s) = (⟨.run, ['*']⟩ :: (lexemes t s).1, (lexemes t s).2) := by
  have first : plainLexemes ['*'] = ([⟨.run, ['*']⟩], none) := by
    have marked : markAt '*' [] = .ok (.run, 0) := rfl
    rw [plainLexemes_cons marked, List.drop_nil, plainLexemes]
    rfl
  have length : (t.nextOpen? ('*' :: s)).getD ('*' :: s).length = 1 := by
    rw [Template.Scanner.nextOpen?_cons star, Template.Scanner.nextOpen?_of_opens opens]
    rfl
  rw [lexemes_eq, length, List.take_succ_cons, List.take_zero, first]
  rfl

/-- Behind a star and a left brace stands a block, and its last lexeme is a piece of its own. -/
theorem wrapped_of_last {final : Lexeme} (front : List Lexeme)
    (kind : final = ⟨.rightBrace, ['\x7d']⟩ ∨ final.mark = .template) (roomy : final.Roomy) :
    Wrapped (pieces (⟨.run, ['*']⟩ :: ⟨.leftBrace, ['\x7b']⟩ :: (front ++ [final]))) := by
  let inBlock : Reading := ⟨.property, [.declarations], none, []⟩
  change Wrapped (⟨.selector, ['*']⟩ :: ⟨.leftBrace, ['\x7b']⟩ ::
    piecesFrom inBlock (front ++ [final]))
  rcases kind with rfl | template
  · have hands : ∀ r : Reading,
        (r.step ⟨.rightBrace, ['\x7d']⟩ false).1 = r.held ++ [⟨.rightBrace, ['\x7d']⟩] ∧
          (r.step ⟨.rightBrace, ['\x7d']⟩ false).2.held = [] := fun _ => ⟨rfl, rfl⟩
    obtain ⟨middle, pieces⟩ := piecesFrom_last inBlock front hands
    rw [pieces]
    exact .apart middle
  · rcases final with ⟨mark, text⟩
    subst template
    have hands : ∀ r : Reading,
        (r.step ⟨.template, text⟩ false).1 = r.held ++ [⟨.template, text⟩] ∧
          (r.step ⟨.template, text⟩ false).2.held = [] := fun _ => ⟨rfl, rfl⟩
    obtain ⟨middle, pieces⟩ := piecesFrom_last inBlock front hands
    rw [pieces]
    exact .overEnd (⟨.selector, ['*']⟩ :: ⟨.leftBrace, ['\x7b']⟩ :: middle) (roomy rfl)

theorem read_wrapped {value : List Char} {found : List Piece}
    (h : read t ('*' :: '\x7b' :: (value ++ ['\x7d'])) = .ok found) : Wrapped found := by
  obtain ⟨_, lexed, rfl⟩ := read_eq_ok h
  have roomy := lexemes_roomy lexed
  -- the first two characters are lexemes of their own, up to a region that opens at one of them
  by_cases star : t.opens ('*' :: '\x7b' :: (value ++ ['\x7d'])) = true
  · obtain ⟨text, more, rfl⟩ := lexemes_of_opens star lexed
    exact .overStar _ ((List.forall_mem_cons.mp roomy).1 rfl)
  · by_cases brace : t.opens ('\x7b' :: (value ++ ['\x7d'])) = true
    · obtain ⟨⟨later, cause⟩, inner⟩ :
          ∃ later, lexemes t ('\x7b' :: (value ++ ['\x7d'])) = later := ⟨_, rfl⟩
      rw [lexemes_star star brace, inner] at lexed
      cases lexed
      obtain ⟨text, more, rfl⟩ := lexemes_of_opens brace inner
      have long := (List.forall_mem_cons.mp roomy).2
      exact .overBrace _ ((List.forall_mem_cons.mp long).1 rfl)
    · obtain ⟨⟨later, cause⟩, inner⟩ :
          ∃ later, lexemes t (value ++ ['\x7d']) = later := ⟨_, rfl⟩
      rw [lexemes_behind_brace star brace, inner] at lexed
      cases lexed
      obtain ⟨front, final, rfl, kind⟩ := lexemes_last List.getLast?_concat inner
      apply wrapped_of_last front kind
      apply roomy
      exact List.mem_cons_of_mem _ (List.mem_cons_of_mem _ (List.mem_append_right _
        List.mem_cons_self))

end Mosaic.Style
