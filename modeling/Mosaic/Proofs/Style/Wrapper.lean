import Mosaic.Proofs.Style.Piece
import Mosaic.Proofs.Template

/-! Style sheets in a wrapper: what is put in front of a sheet that can be read and behind it, a
star, a left brace and a right brace, is read apart from the sheet as long as no left delimiter
touches it. -/
namespace Mosaic.Style

theorem takeWhile_append_brace {p : Char → Bool} (stops : p '\x7d' = false) (s : List Char) :
    (s ++ ['\x7d']).takeWhile p = s.takeWhile p := by
  induction s with
  | nil => simp [stops]
  | cons c rest ih =>
    rw [List.cons_append, List.takeWhile_cons, List.takeWhile_cons, ih]

theorem stringLength?_append_brace {quote : Char} (plain : isQuote quote = true) (s : List Char) :
    stringLength? quote (s ++ ['\x7d']) = stringLength? quote s := by
  have other : '\x7d' ≠ quote := by
    rintro rfl
    cases plain
  fun_induction stringLength? quote s with
  | case1 => simp [stringLength?, other]
  | case2 d rest ih => rw [List.cons_append, List.cons_append, stringLength?, ih]
  | case3 rest visible =>
    rw [List.cons_append, stringLength?, if_pos rfl]
    exact fun _ _ same => nomatch same
  | case4 rest visible newline =>
    rw [List.cons_append, stringLength?, if_neg newline, if_pos rfl]
    rintro d more rfl
    cases plain
  | case5 c rest visible newline notQuote ih =>
    -- a backslash that comes last hides the brace, which closes no string either
    by_cases escape : c = '\\' ∧ rest = []
    · obtain ⟨rfl, rfl⟩ := escape
      rfl
    · rw [List.cons_append, stringLength?, if_neg newline, if_neg notQuote, ih]
      intro d more same shape
      cases rest with
      | nil => exact escape ⟨same, rfl⟩
      | cons e rest => exact visible e rest same rfl

theorem slashMark_append_brace {rest : List Char} {mark : Mark} {n : Nat}
    (h : slashMark rest = .ok (mark, n)) :
    slashMark (rest ++ ['\x7d']) = .ok (mark, n) := by
  unfold slashMark at h
  split at h
  · next body =>
    split at h
    · next m closed =>
      rw [List.cons_append, slashMark, Text.endOf?_append _ closed]
      exact h
    · cases h
  · next plain =>
    cases rest with
    | nil => exact h
    | cons c rest =>
      rw [List.cons_append, slashMark]
      · exact h
      · intro body same
        cases same
        exact plain rest rfl

/-- What begins with a character ends where it ends if a right brace follows the text. -/
theorem markAt_append_brace {c : Char} {rest : List Char} {mark : Mark} {n : Nat}
    (h : markAt c rest = .ok (mark, n)) : markAt c (rest ++ ['\x7d']) = .ok (mark, n) := by
  by_cases slash : c = '/'
  · subst slash
    exact slashMark_append_brace h
  · unfold markAt at h ⊢
    rw [takeWhile_append_brace (p := isSpace) (by decide),
      takeWhile_append_brace (p := isWordPart) (by decide), if_neg slash]
    rw [if_neg slash] at h
    by_cases quote : isQuote c = true
    · rw [stringLength?_append_brace quote]
      exact h
    · rw [if_neg quote] at h ⊢
      exact h

theorem stringLength?_le {quote : Char} {s : List Char} {n : Nat}
    (h : stringLength? quote s = some n) : n ≤ s.length := by
  fun_induction stringLength? quote s generalizing n with
  | case1 => cases h
  | case2 d rest ih =>
    obtain ⟨m, found, rfl⟩ := Option.map_eq_some_iff.mp h
    exact Nat.add_le_add_right (ih found) 2
  | case3 => cases h
  | case4 rest =>
    cases h
    exact Nat.succ_le_succ (Nat.zero_le _)
  | case5 c rest _ _ _ ih =>
    obtain ⟨m, found, rfl⟩ := Option.map_eq_some_iff.mp h
    exact Nat.succ_le_succ (ih found)

theorem markAt_le {c : Char} {rest : List Char} {mark : Mark} {n : Nat}
    (h : markAt c rest = .ok (mark, n)) : n ≤ rest.length := by
  have span := fun p : Char → Bool => (List.takeWhile_prefix (l := rest) p).length_le
  have comment : ∀ found, slashMark rest = .ok found → found.2 ≤ rest.length := by
    intro found same
    unfold slashMark at same
    split at same
    · split at same
      · next closed =>
        cases same
        exact Nat.succ_le_succ (Text.endOf?_le closed)
      · cases same
    · cases same
      exact Nat.zero_le _
  have string : (stringLength? c rest).getD 0 ≤ rest.length := by
    cases found : stringLength? c rest with
    | none => exact Nat.zero_le _
    | some n => exact stringLength?_le found
  unfold markAt at h
  grind

theorem plainLexemes_cons {c : Char} {rest : List Char} {mark : Mark} {n : Nat}
    (h : markAt c rest = .ok (mark, n)) :
    plainLexemes (c :: rest) = (⟨mark, c :: rest.take n⟩ :: (plainLexemes (rest.drop n)).1,
      (plainLexemes (rest.drop n)).2) := by
  rw [plainLexemes, h]

theorem plainLexemes_append_brace {s : List Char} {found : List Lexeme}
    (h : plainLexemes s = (found, none)) :
    plainLexemes (s ++ ['\x7d']) = (found ++ [⟨.rightBrace, ['\x7d']⟩], none) := by
  fun_induction plainLexemes s generalizing found with
  | case1 =>
    cases h
    have brace : markAt '\x7d' [] = .ok (.rightBrace, 0) := rfl
    rw [List.nil_append, plainLexemes_cons brace, List.drop_nil, plainLexemes]
    rfl
  | case2 => cases h
  | case3 c rest mark n marked more _ later ih =>
    cases h
    have le := markAt_le marked
    rw [List.cons_append, plainLexemes_cons (markAt_append_brace marked),
      List.drop_append_of_le_length le, List.take_append_of_le_length le, ih later]
    rfl

variable {t : Template.Scanner} {s : List Char} {found : List Lexeme}

/-- A sheet is read up to its first template region, and then from there on. -/
theorem lexemes_eq (t : Template.Scanner) (s : List Char) :
    lexemes t s =
      match plainLexemes (s.take ((t.nextOpen? s).getD s.length)) with
      | (found, some cause) => (found, some cause)
      | (found, none) =>
        let (more, cause) := lexemes t (s.drop ((t.nextOpen? s).getD s.length))
        (found ++ more, cause) := by
  cases s with
  | nil =>
    rw [List.take_nil, List.drop_nil, plainLexemes, lexemes]
    rfl
  | cons c rest =>
    by_cases opens : t.opens (c :: rest) = true
    · rw [Template.Scanner.nextOpen?_of_opens opens, Option.getD_some, List.take_zero,
        List.drop_zero, plainLexemes]
      rfl
    · rw [Template.Scanner.nextOpen?_cons opens, lexemes, if_neg opens]
      cases t.nextOpen? rest <;> rfl

/-- A star and a left brace in front of a sheet are read apart from it. -/
theorem lexemes_behind_brace (star : ¬ t.opens ('*' :: '\x7b' :: s) = true)
    (brace : ¬ t.opens ('\x7b' :: s) = true) :
    lexemes t ('*' :: '\x7b' :: s) =
      (⟨.run, ['*']⟩ :: ⟨.leftBrace, ['\x7b']⟩ :: (lexemes t s).1, (lexemes t s).2) := by
  have front : ∀ plain, plainLexemes ('*' :: '\x7b' :: plain) =
      (⟨.run, ['*']⟩ :: ⟨.leftBrace, ['\x7b']⟩ :: (plainLexemes plain).1,
        (plainLexemes plain).2) := by
    intro plain
    have first : markAt '*' ('\x7b' :: plain) = .ok (.run, 0) := rfl
    have second : markAt '\x7b' plain = .ok (.leftBrace, 0) := rfl
    rw [plainLexemes_cons first, List.drop_zero, plainLexemes_cons second, List.drop_zero]
    rfl
  have length : (t.nextOpen? ('*' :: '\x7b' :: s)).getD ('*' :: '\x7b' :: s).length =
      (t.nextOpen? s).getD s.length + 2 := by
    rw [Template.Scanner.nextOpen?_cons star, Template.Scanner.nextOpen?_cons brace]
    cases t.nextOpen? s <;> rfl
  rw [lexemes_eq t s, lexemes_eq t ('*' :: '\x7b' :: s), length, List.take_succ_cons,
    List.take_succ_cons, List.drop_succ_cons, List.drop_succ_cons, front]
  cases plainLexemes (s.take ((t.nextOpen? s).getD s.length)) with
  | mk plain cause => cases cause <;> rfl

theorem lexemes_of_plain {plain : List Lexeme} {n : Nat}
    (first : (t.nextOpen? s).getD s.length = n) (read : plainLexemes (s.take n) = (plain, none))
    (rest : lexemes t (s.drop n) = (found, none)) : lexemes t s = (plain ++ found, none) := by
  subst first
  rw [lexemes_eq, read, rest]

theorem lexemes_nil (t : Template.Scanner) : lexemes t [] = ([], none) := by
  rw [lexemes]

theorem lexemes_plain_brace {plain : List Lexeme} (apart : t.Apart s ['\x7d'])
    (last : t.nextOpen? s = none) (read : plainLexemes s = (plain, none)) :
    lexemes t (s ++ ['\x7d']) = (plain ++ [⟨.rightBrace, ['\x7d']⟩], none) := by
  have all : (t.nextOpen? (s ++ ['\x7d'])).getD (s ++ ['\x7d']).length =
      (s ++ ['\x7d']).length := by
    rw [apart.nextOpen?_append, last]
    rfl
  have rest : lexemes t ((s ++ ['\x7d']).drop (s ++ ['\x7d']).length) = ([], none) := by
    rw [List.drop_length, lexemes_nil]
  rw [lexemes_of_plain all _ rest, List.append_nil]
  rw [List.take_length, plainLexemes_append_brace read]

/-- A right brace behind a sheet is read apart from it, or belongs to its last template region. -/
theorem lexemes_append_brace (apart : t.Apart s ['\x7d']) (h : lexemes t s = (found, none)) :
    ∃ more, lexemes t (s ++ ['\x7d']) = (more, none) := by
  fun_induction lexemes t s generalizing found with
  | case1 =>
    have read : plainLexemes [] = ([], none) := by rw [plainLexemes]
    exact ⟨_, lexemes_plain_brace apart (Template.Scanner.nextOpen?_nil t) read⟩
  | case2 => cases h
  | case3 c rest opens n measured more cause later ih =>
    cases h
    obtain ⟨region, -, le⟩ := Template.Scanner.scanAfter_spec opens measured
    obtain ⟨m, grown, same⟩ := apart.scan_append (by decide) opens region
    have still := apart.opens_append.trans opens
    -- either the region ends as before and the brace stays, or it takes the brace and ends there
    have behind : ∃ more, lexemes t ((rest ++ ['\x7d']).drop (m - 1)) = (more, none) := by
      rcases same with rfl | rfl
      · rw [Nat.add_sub_cancel, List.drop_append_of_le_length le]
        exact ih (apart.drop (n := n + 1) (Nat.succ_le_succ le)) later
      · rw [List.length_cons, Nat.add_sub_cancel, List.drop_of_length_le (by simp)]
        exact ⟨[], lexemes_nil t⟩
    obtain ⟨more, read⟩ := behind
    rw [List.cons_append] at still grown ⊢
    rw [lexemes, if_pos still, Template.Scanner.scanAfter, grown, Option.map_some]
    dsimp only
    rw [read]
    exact ⟨_, rfl⟩
  | case4 => cases h
  | case5 c rest closed n plain read more cause later =>
    rename_i ih
    cases h
    have first := Template.Scanner.nextOpen?_cons closed
    cases next : t.nextOpen? rest with
    | none =>
      have size : n = rest.length := by simp only [n, next, Option.getD_none]
      rw [next] at first
      rw [size, List.take_length] at read
      exact ⟨_, lexemes_plain_brace apart first read⟩
    | some m =>
      have size : n = m := by simp only [n, next, Option.getD_some]
      have le := Nat.succ_le_succ (Template.Scanner.nextOpen?_le next)
      rw [next] at first
      rw [size] at read later ih
      obtain ⟨more, behind⟩ := ih (apart.drop (n := m + 1) le) later
      have start : (t.nextOpen? (c :: rest ++ ['\x7d'])).getD (c :: rest ++ ['\x7d']).length =
          m + 1 := by
        rw [apart.nextOpen?_append, first]
        rfl
      refine ⟨plain ++ more, lexemes_of_plain start ?_ ?_⟩
      · rw [List.take_append_of_le_length le]
        exact read
      · rw [List.drop_append_of_le_length le]
        exact behind

theorem read_of_lexemes (h : lexemes t s = (found, none)) : read t s = .ok (pieces found) := by
  rw [read, h]

theorem tokenize_of_read {source : String} {found : List Piece} (origin : Origin)
    (h : read t source.toList = .ok found) :
    tokenize t origin source = .ok (place (.ofText source.toList origin) 0 found) := by
  rw [tokenize, h]

end Mosaic.Style
