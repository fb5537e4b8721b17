import Mosaic.Proofs.Bytewise.Dispatch
import Mosaic.Proofs.Embedding.Nesting

/-! Every reading ends. A loop that goes on goes on further ahead, so it comes to its end without
ever being asked whether it moves; and markup is nested in shorter and shorter texts, so it is read
to its end without ever being asked for its length. -/
namespace Mosaic.Bytewise

open Outcome

section Runs

variable {σ α : Type} (size : Nat) (round : σ → Nat → Checked (Step σ α))
  (finish : σ → Nat → Checked α)

/-- A round that goes on leaves the cursor ahead of where it was. -/
def Advances : Prop :=
  ∀ state pos next after, pos < size → round state pos = .ok (.go next after) → pos < next

/-- A loop that comes to a result in finitely many rounds. Nothing asks whether it moves on. -/
inductive Runs : σ → Nat → Checked α → Prop
  | finish {state : σ} {pos : Nat} : size ≤ pos → Runs state pos (finish state pos)
  | stop {state : σ} {pos : Nat} {stop : Stop} : pos < size →
    round state pos = .error stop → Runs state pos (.error stop)
  | done {state : σ} {pos : Nat} {result : α} : pos < size →
    round state pos = .ok (.done result) → Runs state pos (.ok result)
  | go {state after : σ} {pos next : Nat} {result : Checked α} : pos < size →
    round state pos = .ok (.go next after) → Runs after next result → Runs state pos result

/-- A loop whose rounds move forward, and which ends wherever it is begun. -/
structure Progress : Prop where
  forward : Advances size round
  ends : ∀ state pos, Runs size round finish state pos (loop size round finish state pos)

variable {size round finish}

theorem Advances.runs (forward : Advances size round) (state : σ) (pos : Nat) :
    Runs size round finish state pos (loop size round finish state pos) := by
  induction hleft : size - pos using Nat.strongRecOn generalizing state pos with
  | ind left ih =>
    subst hleft
    by_cases inside : pos < size
    · cases hround : round state pos with
      | error stop =>
        rw [loop_stop inside hround]
        exact .stop inside hround
      | ok step =>
        cases step with
        | done result =>
          rw [loop_done inside hround]
          exact .done inside hround
        | go next after =>
          have ahead := forward state pos next after inside hround
          rw [loop_go inside hround ahead]
          apply Runs.go inside hround
          exact ih (size - next) (by omega) after next rfl
    · have outside := Nat.le_of_not_lt inside
      rw [loop_finish outside]
      exact .finish outside

theorem Advances.progress (forward : Advances size round) : Progress size round finish :=
  ⟨forward, forward.runs⟩

end Runs

section Rounds

variable {source : List Char} {pos : Nat}

theorem at_of_suffixAt {β : Type} {read : List Char → Checked β} {result : β}
    (h : suffixAt source pos >>= read = .ok result) :
    ∃ rest, At source pos rest ∧ read rest = .ok result := by
  obtain ⟨rest, cut, read⟩ := bind_eq_ok.mp h
  exact ⟨rest, suffixAt_eq_ok.mp cut, read⟩

theorem At.exists_cons {rest : List Char} (h : At source pos rest)
    (inside : pos < Text.bytes source) : ∃ c more, rest = c :: more := by
  cases rest with
  | nil =>
    rw [h.stop] at inside
    exact absurd inside (Nat.lt_irrefl _)
  | cons c more => exact ⟨c, more, rfl⟩

theorem firstSize_pos (rest : List Char) : 0 < firstSize rest := by
  cases rest with
  | nil => exact Nat.one_pos
  | cons c rest => exact c.utf8Size_pos

theorem lt_add_bytes_cons (pos : Nat) (c : Char) (rest : List Char) :
    pos < pos + Text.bytes (c :: rest) :=
  Nat.lt_add_of_pos_right (Text.bytes_pos (List.cons_ne_nil c rest))

theorem advances_walk (stops : List Char → Bool) (source : List Char) :
    Advances (Text.bytes source) (walkRound stops source) := by
  intro state pos next after _ go
  obtain ⟨rest, -, go⟩ := at_of_suffixAt go
  have sized := firstSize_pos rest
  split at go
  · cases go
  · cases go
    omega

theorem advances_byte {σ : Type} (act : σ → Char → Act σ) (bytes : List UInt8) :
    Advances bytes.length (byteRound act bytes) := by
  intro state pos next after _ go
  obtain ⟨b, -, go⟩ := bind_eq_ok.mp go
  have go := Except.ok.inj go
  cases hact : act state (asChar b) with
  | escape | pass =>
    rw [hact] at go
    cases go
    omega
  | close | fail =>
    rw [hact] at go
    cases go

/-- A walk from byte to byte does not end before the byte at which it begins. -/
theorem le_of_walkBytes {σ : Type} {act : σ → Char → Act σ} {bytes : List UInt8} {state : σ}
    {start stop : Nat} (h : walkBytes act bytes state start = .ok (some stop)) : start ≤ stop := by
  have runs : Runs _ _ (fun _ _ => .ok none) state start (walkBytes act bytes state start) :=
    (advances_byte act bytes).runs state start
  generalize walkBytes act bytes state start = result at h runs
  induction runs with
  | finish => cases h
  | stop => cases h
  | @done state pos result _ done =>
    cases h
    obtain ⟨b, -, done⟩ := bind_eq_ok.mp done
    have done := Except.ok.inj done
    split at done
    · cases done
    · cases done
    · cases done
      exact Nat.le_refl _
    · cases done
  | @go state after pos next result inside go _ ih =>
    have ahead := advances_byte act bytes state pos next after inside go
    exact Nat.le_trans (Nat.le_of_lt ahead) (ih h)

theorem advances_delimited (left right source : List Char) :
    Advances (encode source).length (delimitedRound left right source) := by
  intro state pos next after _ go
  obtain ⟨tail, -, go⟩ := bind_eq_ok.mp go
  split at go
  · cases go
  · obtain ⟨b, -, go⟩ := bind_eq_ok.mp go
    dsimp only at go
    split at go
    · obtain ⟨closed, walked, go⟩ := bind_eq_ok.mp go
      cases closed with
      | none =>
        obtain ⟨body, -, go⟩ := bind_eq_ok.mp go
        cases go
      | some stop =>
        have behind := le_of_walkBytes walked
        cases go
        omega
    · cases go
      exact Nat.lt_succ_self pos

/-- The nested adapter takes the delimiters themselves for its steps, so neither may be empty. -/
theorem advances_nested {left right : List Char} (leftSome : left ≠ []) (rightSome : right ≠ [])
    (source : List Char) : Advances (Text.bytes source) (nestedRound left right source) := by
  intro depth pos next after _ go
  obtain ⟨rest, -, go⟩ := at_of_suffixAt go
  have leftSize := Text.bytes_pos leftSome
  have rightSize := Text.bytes_pos rightSome
  have sized := firstSize_pos rest
  split at go
  · cases go
    omega
  · split at go
    · have go := Except.ok.inj go
      split at go
      · cases go
      · cases go
        omega
    · cases go
      omega

/-- With an empty delimiter it would stand still. -/
theorem not_advances_nested_nil (right : List Char) :
    ¬ Advances (Text.bytes ['a']) (nestedRound [] right ['a']) := by
  intro forward
  have stands : nestedRound [] right ['a'] 0 0 = .ok (.go 0 1) := rfl
  exact absurd (forward 0 0 0 1 (by decide) stands) (Nat.lt_irrefl 0)

end Rounds

section Markup

open Mosaic.Markup

variable (t : Template.Scanner) (origin : Origin) (source : List Char)

theorem advances_value (ends : Char → Bool) :
    Advances (Text.bytes source) (Markup.valueRound t origin source ends) := by
  intro state pos next after inside go
  obtain ⟨rest, here, go⟩ := at_of_suffixAt go
  obtain ⟨c, more, rfl⟩ := here.exists_cons inside
  split at go
  · next opens =>
    rw [Markup.templateEnd_eq origin here opens] at go
    cases found : t.scanAfter c more with
    | none =>
      rw [found] at go
      cases go
    | some n =>
      rw [found] at go
      cases go
      exact lt_add_bytes_cons pos c _
  · split at go
    · cases go
    · cases go
      exact Nat.lt_add_of_pos_right c.utf8Size_pos

theorem advances_text (start : Nat) :
    Advances (Text.bytes source + 1) (Markup.textRound t source start) := by
  intro state pos next after _ go
  obtain ⟨rest, -, go⟩ := at_of_suffixAt go
  split at go
  · cases go
  · obtain ⟨candidate, -, go⟩ := bind_eq_ok.mp go
    split at go
    · cases go
    · cases go
      omega

theorem advances_start (start : Nat) (name : List Char) :
    Advances (Text.bytes source + 1) (Markup.startRound t origin source start name) := by
  intro attrs pos next after _ go
  have reads : ∃ s, At source pos s := by
    obtain ⟨stop, blanks, -⟩ := bind_eq_ok.mp go
    obtain ⟨s, here, -⟩ := at_of_suffixAt blanks
    exact ⟨s, here⟩
  obtain ⟨s, here⟩ := reads
  cases behind : s.dropWhile Text.isBlank with
  | nil =>
    rw [Markup.startRound_eq attrs here, behind, Markup.startPart, if_pos rfl,
      Markup.fail, fail_eq] at go
    cases go
  | cons c rest =>
    by_cases closer : c = '>'
    · subst closer
      rw [Markup.startRound_eq attrs here, behind] at go
      cases go
    · by_cases selfCloser : c = '/' ∧ rest.head? = some '>'
      · obtain ⟨rfl, bracket⟩ := selfCloser
        obtain ⟨tail, rfl⟩ := List.head?_eq_some_iff.mp bracket
        rw [Markup.startRound_eq attrs here, behind] at go
        cases go
      · rw [Markup.startRound_attr attrs here behind closer selfCloser] at go
        obtain ⟨⟨attr, n⟩, -, same⟩ := map_eq_ok.mp go
        cases same
        have ahead := lt_add_bytes_cons (pos + Text.bytes (s.takeWhile Text.isBlank)) c
          (rest.take n)
        omega

theorem advances_piece : Advances (Text.bytes source) (Markup.pieceRound t origin source) := by
  intro tokens pos next after inside go
  obtain ⟨s, here, -⟩ := at_of_suffixAt go
  obtain ⟨c, rest, rfl⟩ := here.exists_cons inside
  rw [Markup.pieceRound_eq tokens here] at go
  cases read : pieceAt t c rest with
  | error halt =>
    rw [read] at go
    cases go
  | ok found =>
    rw [read] at go
    cases go
    exact lt_add_bytes_cons pos c _

end Markup

section Style

variable (t : Template.Scanner) (origin : Origin) (source : List Char)

theorem advances_plain (text : List Char) (offset : Nat) :
    Advances (Text.bytes text) (Style.plainRound origin source text offset) := by
  intro cuts pos next after inside go
  obtain ⟨s, here, -⟩ := at_of_suffixAt go
  obtain ⟨c, rest, rfl⟩ := here.exists_cons inside
  rw [Style.plainRound_eq cuts here] at go
  cases marked : Mosaic.Style.markAt c rest with
  | error cause =>
    rw [marked] at go
    cases go
  | ok found =>
    rw [marked] at go
    cases go
    exact lt_add_bytes_cons pos c _

theorem advances_lex : Advances (Text.bytes source) (Style.lexRound t origin source) := by
  intro cuts pos next after inside go
  obtain ⟨s, here, round⟩ := at_of_suffixAt go
  obtain ⟨c, rest, rfl⟩ := here.exists_cons inside
  by_cases opens : t.opens (c :: rest) = true
  · rw [if_pos opens, scan_eq opens] at round
    cases found : t.scan (c :: rest) with
    | none =>
      rw [found] at round
      cases (Style.fail_eq (α := Step _ _) _ _).symm.trans round
    | some n =>
      rw [found] at round
      cases round
      obtain ⟨some, -⟩ := Template.Scanner.scan_bounds opens found
      obtain ⟨m, rfl⟩ := Nat.exists_eq_add_of_le' (Nat.le_of_succ_le some)
      exact lt_add_bytes_cons pos c _
  · rw [Style.lexRound_plain cuts here opens] at go
    obtain ⟨found, -, same⟩ := map_eq_ok.mp go
    cases same
    exact lt_add_bytes_cons pos c _

end Style

section Script

open Mosaic.Script

theorem advances_flag (bytes : List UInt8) :
    Advances bytes.length (Script.flagRound bytes) := by
  intro state pos next after _ go
  obtain ⟨b, -, go⟩ := bind_eq_ok.mp go
  split at go
  · cases go
    exact Nat.lt_succ_self pos
  · cases go

theorem advances_parse (source : List Char) :
    Advances (Text.bytes source) (Script.parseRound source) := by
  intro state pos next after inside go
  obtain ⟨s, here, -⟩ := at_of_suffixAt go
  obtain ⟨c, rest, rfl⟩ := here.exists_cons inside
  have ahead := fun n => lt_add_bytes_cons pos c (rest.take n)
  rw [Script.parseRound_eq state here] at go
  cases cut : roleAt state.operand c rest with
  | error cause =>
    rw [cut] at go
    cases go
  | ok found =>
    obtain ⟨role, n⟩ := found
    rw [cut] at go
    cases role with
    | leaf kind =>
      cases go
      exact ahead n
    | opener bracket =>
      cases go
      exact ahead n
    | closer bracket =>
      rw [Script.answer] at go
      split at go
      · cases go
      · split at go
        · cases go
          exact ahead n
        · cases go

end Script

/-- The loops of all readers: pieces, tags, names, values and text of markup, style sheets and the
text between their templates, both adapters where a region opens, strings, and scripts. -/
structure LoopsProgress (t : Template.Scanner) (origin : Origin) (source : List Char) : Prop where
  pieces : Progress (Text.bytes source) (Markup.pieceRound t origin source)
    fun tokens _ => .ok tokens
  startTag : ∀ start name, Progress (Text.bytes source + 1)
    (Markup.startRound t origin source start name) fun _ _ => .error (.trap .badIndex)
  name : ∀ stops, Progress (Text.bytes source) (walkRound stops source) fun _ pos => .ok pos
  value : ∀ ends (finish : Nat → Checked Nat), Progress (Text.bytes source)
    (Markup.valueRound t origin source ends) fun _ pos => finish pos
  text : ∀ start, Progress (Text.bytes source + 1) (Markup.textRound t source start)
    fun _ _ => .error (.trap .badIndex)
  sheet : Progress (Text.bytes source) (Style.lexRound t origin source) fun cuts _ => .ok cuts
  between : ∀ text offset, Progress (Text.bytes text) (Style.plainRound origin source text offset)
    fun cuts _ => .ok cuts
  delimited : t.opens source = true → Progress (encode source).length
    (delimitedRound t.left t.right source) fun _ _ => .ok none
  nested : t.opens source = true → Progress (Text.bytes source)
    (nestedRound t.left t.right source) fun _ _ => .ok none
  string : ∀ (σ : Type) (act : σ → Char → Act σ) bytes, Progress bytes.length
    (byteRound act bytes) fun _ _ => .ok none
  flags : ∀ bytes, Progress bytes.length (Script.flagRound bytes) fun _ pos => .ok pos
  script : Progress (Text.bytes source) (Script.parseRound source) (Script.finish source)

theorem loopsProgress (t : Template.Scanner) (origin : Origin) (source : List Char) :
    LoopsProgress t origin source := by
  constructor
  case pieces => exact (advances_piece t origin source).progress
  case startTag => exact fun start name => (advances_start t origin source start name).progress
  case name => exact fun stops => (advances_walk stops source).progress
  case value => exact fun ends _ => (advances_value t origin source ends).progress
  case text => exact fun start => (advances_text t source start).progress
  case sheet => exact (advances_lex t origin source).progress
  case between => exact fun text offset => (advances_plain origin source text offset).progress
  case delimited => exact fun _ => (advances_delimited t.left t.right source).progress
  case nested =>
    intro opens
    rw [Template.Scanner.opens, Bool.and_eq_true] at opens
    obtain ⟨leftSome, rightSome⟩ := Template.Scanner.ne_nil_of_active opens.1
    exact (advances_nested leftSome rightSome source).progress
  case string => exact fun _ act bytes => (advances_byte act bytes).progress
  case flags => exact fun bytes => (advances_flag bytes).progress
  case script => exact (advances_parse source).progress

section Nesting

variable (adapters : Template.Adapters)

/-- Markup that is read to its end: what is nested in it is read to its end, whatever its
length. -/
inductive Reads : Config → Origin → String → Checked (List Token) → Prop
  | stop {config : Config} {origin : Origin} {source : String} {stop : Stop} :
    Markup.tokenize (adapters.scanner config.template) origin source = .error stop →
    Reads config origin source (.error stop)
  | embed {config : Config} {origin : Origin} {source : String} {tokens : List Token}
    (nested : NestedReader) :
    Markup.tokenize (adapters.scanner config.template) origin source = .ok tokens →
    (∀ index region inner, (index, region) ∈ Embedding.locate config tokens →
      region.kind = .templateScript → config.nested? = some inner →
      Reads inner region.origin region.text (nested inner region.origin region.text)) →
    Reads config origin source (embedWith adapters nested config tokens)

/-- A text that is read to its end. -/
inductive Dispatches : Config → Grammar → Origin → String → Checked Ast → Prop
  | script (config : Config) (origin : Origin) (source : String) :
    Dispatches config .script origin source ((Script.parse source).map .script)
  | style (config : Config) (origin : Origin) (source : String) :
    Dispatches config .style origin source
      ((Style.tokenize (adapters.scanner config.template) origin source).map .style)
  | markup {config : Config} {origin : Origin} {source : String} {read : Checked (List Token)} :
    Reads adapters config origin source read →
    Dispatches config .markup origin source (read.map .markup)

variable {adapters}

theorem readMarkup_eq (config : Config) (origin : Origin) (source : String) :
    readMarkup adapters config origin source =
      Markup.tokenize (adapters.scanner config.template) origin source >>=
        embedWith adapters (readMarkup adapters) config := by
  rw [agrees_readMarkup, Mosaic.readMarkup_eq, mapError_bind, Markup.tokenize_eq]
  congr 1
  funext tokens
  exact (embedWith_eq agrees_readMarkup config tokens).symm

theorem reads_readMarkup (config : Config) (origin : Origin) (source : String) :
    Reads adapters config origin source (readMarkup adapters config origin source) := by
  generalize hexcerpt : Excerpt.mk config origin source = excerpt
  -- every reader is this one again, on an excerpt that nests in the one at hand
  induction excerpt using (wellFounded_nests adapters).induction
    generalizing config origin source with
  | h excerpt ih =>
    subst hexcerpt
    rw [readMarkup_eq]
    cases tokenized : Markup.tokenize (adapters.scanner config.template) origin source with
    | error stop => exact .stop tokenized
    | ok tokens =>
      apply Reads.embed (readMarkup adapters) tokenized
      intro index region inner located kind settings
      rw [Markup.tokenize_eq] at tokenized
      have nests : Nests adapters ⟨config, origin, source⟩
          ⟨inner, region.origin, region.text⟩ :=
        .script (Excerpt.mem_located.mpr ⟨tokens, mapError_eq_ok.mp tokenized, located⟩) kind
          settings
      exact ih _ nests inner region.origin region.text rfl

end Nesting

theorem dispatches_dispatch (adapters : Template.Adapters) (config : Config) (grammar : Grammar)
    (origin : Origin) (source : String) :
    Dispatches adapters config grammar origin source
      (dispatch adapters config grammar origin source) := by
  cases grammar with
  | script => exact .script config origin source
  | style => exact .style config origin source
  | markup => exact .markup (reads_readMarkup config origin source)

/-- Every text is read to its end, to a tree or to a failure: markup is nested in texts of fewer
and fewer bytes, every loop moves its cursor forward, and neither is ever asked for a limit. -/
theorem dispatch_terminates (adapters : Template.Adapters) :
    (∀ outer inner, Nests adapters outer inner →
      Text.bytes inner.source.toList < Text.bytes outer.source.toList) ∧
    (∀ t origin source, LoopsProgress t origin source) ∧
    ∀ config grammar origin source, Dispatches adapters config grammar origin source
      ((Mosaic.dispatch (.withAdapters adapters) config grammar origin source).mapError
        .failure) := by
  refine ⟨?_, loopsProgress, ?_⟩
  · intro outer inner nests
    exact nests.fewer_bytes
  · intro config grammar origin source
    rw [← dispatch_eq]
    exact dispatches_dispatch adapters config grammar origin source

/-- Markup in a script that is never closed, and in that once more. -/
def unclosedTwice : Excerpt :=
  ⟨⟨.standard, some ⟨["a"], .standard⟩⟩, .zero, "<script type=a><script type=a>x"⟩

theorem dispatch_terminates_unclosedTwice : ∃ inner, Nests .empty unclosedTwice inner ∧
    inner.source = "<script type=a>x" ∧
    Text.bytes inner.source.toList < Text.bytes unclosedTwice.source.toList ∧
    ∃ result, Dispatches .empty unclosedTwice.config .markup .zero unclosedTwice.source
      result := by
  obtain ⟨shorter, -, ends⟩ := dispatch_terminates .empty
  have located : (0, ⟨.templateScript, "<script type=a>x", ⟨15, 0, 15, 0⟩, some "a"⟩) ∈
      unclosedTwice.located .empty := by
    decide +kernel
  have nests := Nests.script located rfl rfl
  exact ⟨_, nests, rfl, shorter _ _ nests, _,
    ends unclosedTwice.config .markup .zero unclosedTwice.source⟩

end Mosaic.Bytewise
