import Mosaic.Proofs.Failure
import Mosaic.Proofs.Markup.Piece

/-! Where markup cannot be read on. A reader halts in front of what it cannot end: a region, a
quote or a tag that may have begun long before. -/
namespace Mosaic.Markup

open Outcome

variable {t : Template.Scanner}

/-- A halt leaves an end of the text, which begins with what its cause names. -/
def Halt.Points (t : Template.Scanner) (s : List Char) (halt : Halt) : Prop :=
  halt.rest <:+ s ∧ halt.cause.Names t .markup halt.rest

theorem Halt.Points.later {s whole : List Char} {halt : Halt} (h : halt.Points t s)
    (inside : s <:+ whole) : halt.Points t whole := ⟨h.1.trans inside, h.2⟩

theorem Halt.Points.cons {c : Char} {rest : List Char} {halt : Halt} (h : halt.Points t rest) :
    halt.Points t (c :: rest) := h.later (List.suffix_cons c rest)

theorem Halt.Points.drop {n : Nat} {rest : List Char} {halt : Halt}
    (h : halt.Points t (rest.drop n)) : halt.Points t rest := h.later (List.drop_suffix n rest)

theorem points_of_opens {s : List Char} (h : t.opens s = true) :
    Halt.Points t s ⟨.unclosedTemplate, s⟩ := ⟨List.suffix_rfl, Cause.names_of_opens h⟩

theorem quotedLength_halts {quote : Char} {unclosed halt : Halt} {skip : Nat} {s : List Char}
    (h : quotedLength t quote unclosed skip s = .error halt) :
    halt = unclosed ∨ halt.Points t s := by
  induction s generalizing skip with
  | nil =>
    cases skip <;> cases h <;> exact .inl rfl
  | cons c rest ih =>
    have later : ∀ skip, (quotedLength t quote unclosed skip rest).map (· + 1) = .error halt →
        halt = unclosed ∨ halt.Points t (c :: rest) := by
      intro skip h
      rcases ih (map_eq_error.mp h) with rfl | points
      · exact .inl rfl
      · exact .inr points.cons
    cases skip with
    | succ skip => exact later skip h
    | zero =>
      simp only [quotedLength] at h
      split at h
      · next opens =>
        split at h
        · cases h
          exact .inr (points_of_opens opens)
        · exact later _ h
      · split at h
        · cases h
        · exact later 0 h

theorem unquotedLength_halts {halt : Halt} {skip : Nat} {s : List Char}
    (h : unquotedLength t skip s = .error halt) : halt.Points t s := by
  induction s generalizing skip with
  | nil => cases skip <;> cases h
  | cons c rest ih =>
    cases skip with
    | succ skip => exact (ih (map_eq_error.mp h)).cons
    | zero =>
      simp only [unquotedLength] at h
      split at h
      · next opens =>
        split at h
        · cases h
          exact points_of_opens opens
        · exact (ih (map_eq_error.mp h)).cons
      · split at h
        · cases h
        · exact (ih (map_eq_error.mp h)).cons

theorem valueAt_halts {s : List Char} {halt : Halt} (h : valueAt t s = .error halt) :
    halt.Points t s := by
  cases s with
  | nil => cases h
  | cons c rest =>
    simp only [valueAt] at h
    split at h
    · next quote =>
      rcases quotedLength_halts (map_eq_error.mp h) with rfl | points
      · exact ⟨List.suffix_rfl, .value quote (prefix_cons c rest)⟩
      · exact points.cons
    · exact unquotedLength_halts (map_eq_error.mp h)

theorem attrAt_halts {leading : List Char} {c : Char} {rest : List Char} {halt : Halt}
    (h : attrAt t leading c rest = .error halt) : halt.Points t (c :: rest) := by
  unfold attrAt at h
  split at h
  · next opens =>
    split at h
    · cases h
      exact points_of_opens opens
    · cases h
  · simp only at h
    split at h
    · cases h
    · split at h
      · next read =>
        cases h
        exact (valueAt_halts read).drop.cons
      · cases h

theorem tagRest_halts {unclosed halt : Halt} {s : List Char}
    (h : tagRest t unclosed s = .error halt) : halt = unclosed ∨ halt.Points t s := by
  fun_induction tagRest t unclosed s with
  | case1 =>
    cases h
    exact .inl rfl
  | case2 => cases h
  | case3 => cases h
  | case4 s leading c rest =>
    rename_i behind _ read
    cases h
    exact .inr ((attrAt_halts read).later (behind ▸ List.dropWhile_suffix _))
  | case5 s leading c rest =>
    rename_i behind _ _ _ _ read ih
    cases h
    rcases ih read with rfl | points
    · exact .inl rfl
    · exact .inr (points.drop.cons.later (behind ▸ List.dropWhile_suffix _))
  | case6 => cases h

theorem startTagAt_halts {rest : List Char} {halt : Halt} (h : startTagAt t rest = .error halt) :
    halt.Points t ('<' :: rest) := by
  unfold startTagAt at h
  simp only at h
  split at h
  · next read =>
    cases h
    rcases tagRest_halts read with rfl | points
    · refine ⟨List.suffix_rfl, .tag ?_⟩
      exact List.cons_prefix_cons.mpr ⟨rfl, List.take_prefix _ rest⟩
    · exact points.drop.cons
  · cases h

theorem elementAt_halts {rest : List Char} {halt : Halt} (h : elementAt t rest = .error halt) :
    halt.Points t ('<' :: rest) := by
  unfold elementAt at h
  split at h
  · next read =>
    cases h
    exact startTagAt_halts read
  · next start n _ =>
    split at h
    · cases h
    · simp only at h
      split at h
      · cases h
      · next i m closer =>
        -- The end tag of an element is looked for as a whole, so it is there.
        obtain ⟨finish, len, read, -⟩ := endTagAt_closer t (firstCloser?_spec closer)
        rw [List.drop_drop] at read
        rw [read] at h
        cases h

theorem upTo_halts {kind : TokenKind} {cause : Cause} {skip : Nat} {word : List Char} {c : Char}
    {rest : List Char} {halt : Halt} (h : upTo kind cause skip word c rest = .error halt) :
    halt = ⟨cause, c :: rest⟩ := by
  unfold upTo at h
  split at h
  · cases h
    rfl
  · cases h

theorem pieceAt_halts {c : Char} {rest : List Char} {halt : Halt}
    (h : pieceAt t c rest = .error halt) : halt.Points t (c :: rest) := by
  unfold pieceAt at h
  split at h
  · next opens =>
    split at h
    · cases h
      exact points_of_opens opens
    · cases h
  · split at h
    · next comment =>
      obtain rfl := upTo_halts h
      exact ⟨List.suffix_rfl, .markupComment (List.isPrefixOf_iff_prefix.mp comment)⟩
    · split at h
      · next declaration =>
        obtain rfl := upTo_halts h
        refine ⟨List.suffix_rfl, ?_⟩
        rcases declaration with declared | processed
        · exact .declaration (.inl rfl) (List.isPrefixOf_iff_prefix.mp declared)
        · exact .declaration (.inr rfl) (List.isPrefixOf_iff_prefix.mp processed)
      · split at h
        · next ends =>
          obtain rfl := endTagAt_halts (map_eq_error.mp h)
          obtain rfl := bracket_of_opensEndTag ends
          obtain ⟨more, rfl⟩ := slash_of_opensEndTag ends
          exact ⟨List.suffix_rfl, .endTag (List.prefix_append ['<', '/'] more)⟩
        · split at h
          · next starts =>
            obtain rfl := bracket_of_opensStartTag starts
            exact elementAt_halts h
          · cases h

/-- A document that cannot be cut into pieces is to blame at a text that the cause names. -/
theorem pieces_halts {s : List Char} {halt : Halt} (h : pieces t s = .error halt) :
    halt.Points t s := by
  fun_induction pieces t s with
  | case1 => cases h
  | case2 c rest halt read =>
    cases h
    exact pieceAt_halts read
  | case3 c rest piece n _ halt read ih =>
    cases h
    exact (ih read).drop.cons
  | case4 => cases h

theorem points_fault {source : List Char} {halt : Halt} (h : halt.Points t source) :
    (halt.fault source).Points t .markup source := by
  obtain ⟨⟨before, rfl⟩, names⟩ := h
  refine ⟨before, halt.rest, rfl, ?_, names⟩
  rw [Halt.fault, Text.bytes_append, Nat.add_sub_cancel]

theorem tokenize_points {origin : Origin} {source : String} {error : BackendError}
    {document front after : List Char} (place : origin = .behind front)
    (part : document = front ++ source.toList ++ after)
    (h : tokenize t origin source = .error error) : error.Points t document := by
  subst place part
  simp only [tokenize] at h
  split at h
  · cases h
  · next halt read =>
    cases h
    exact (points_fault (pieces_halts read)).locate

end Mosaic.Markup
