import BoolSearch.Proofs.Connectives

namespace BoolSearch

open Grammar

namespace Token

structure Touches (token other : Token) : Prop where
  before : token.span.start < other.span.start
  reaches : other.span.start ≤ token.span.stop

structure StartsInside (token other : Token) : Prop where
  opens : other.span.start < token.span.start
  inside : token.span.start < other.span.stop

end Token

namespace Grammar

section Tokens

variable {previous : Option TokenKind} {text rest value inner inner' : List Char} {c : Char}
  {front back : List Lexeme} {token : Lexeme}

theorem Shaped.isValue_of_isQuote (h : Shaped token) (hc : c ∈ token.text) (quote : isQuote c) :
    token.kind.IsValue := by
  have letters (hl : ∀ d ∈ token.text, isLetter d) : token.kind.IsValue :=
    absurd quote (ne_true_of_eq_false (isQuote_of_isLetter (hl c hc)))
  have single {d : Char} (e : token.text = [d]) (hd : isQuote d = false) : token.kind.IsValue := by
    rw [e] at hc
    cases List.mem_singleton.mp hc
    exact absurd quote (ne_true_of_eq_false hd)
  cases h
  case blank hb          => exact single rfl (isQuote_of_isBlank hb)
  case connective spells => exact letters (isLetter_of_spells spells)
  case opening           => exact single rfl (by decide)
  case closing           => exact single rfl (by decide)
  case key hn            => exact letters hn.2
  case equals            => exact single rfl (by decide)
  case quoted            => exact .inl rfl
  case bare              => exact .inr rfl

-- Where a quote cannot start a value, another value stands directly in front of it.
theorem exists_value_before (h : lexemes none text = front ++ token :: back)
    (bare : token.kind = .bare) (starts : quoteStartsOperand (lastKind none front) = false) :
    ∃ front' last, front' ++ [last] = front ∧ last.kind.IsValue := by
  obtain rfl | ⟨front, ⟨kind, name⟩, rfl⟩ := List.eq_nil_or_concat front
  case inl => cases starts
  case inr =>
    refine ⟨front, ⟨kind, name⟩, List.concat_eq_append.symm, ?_⟩
    rw [List.concat_eq_append] at h starts
    rw [lastKind_append] at starts
    cases kind
    case key =>
      rw [List.append_assoc] at h
      simpa [bare] using kind_of_lexemes_eq_key h
    case quoted => exact .inl rfl
    case bare   => exact .inr rfl
    all_goals cases starts

theorem cases_at_quoted (h : lexemes none text = front ++ token :: back) (hq : IsQuoted value)
    (et : inner ++ c :: inner' = token.text) (ev : value ++ rest = c :: inner' ++ textOf back) :
    inner = [] ∧ token = ⟨.quoted, value⟩ ∨ inner ≠ [] ∧ token.kind.IsValue ∨
      inner = [] ∧ ∃ front' last, front' ++ [last] = front ∧ last.kind.IsValue := by
  have quote : isQuote c := isQuote_of_beginsQuoted ⟨value, rest, hq, ev⟩ c rfl
  have hm : token ∈ lexemes none text := by simp [h]
  have kind := (shaped_of_mem_lexemes hm).isValue_of_isQuote (c := c) (by simp [← et]) quote
  by_cases hi : inner = []
  case neg => exact .inr (.inl ⟨hi, kind⟩)
  case pos =>
    subst hi
    have ev : value ++ rest = textOf (token :: back) := by rw [ev, textOf_cons, ← et]; rfl
    have begins : BeginsQuoted (textOf (token :: back)) := ⟨value, rest, hq, ev⟩
    obtain ⟨scan, takes, head, -⟩ | ⟨_, _, rfl⟩ | rfl | ⟨_, _, _, _, hv⟩ := cases_of_lexemes_eq h
    case inr.inl     => cases kind <;> contradiction
    case inr.inr.inl => cases kind <;> contradiction
    case inr.inr.inr =>
      generalize textOf (token :: back) = text at hv ev begins
      cases hv
      case quoted hq' e =>
        cases hq.unique hq' (ev.trans e.symm)
        exact .inl ⟨rfl, rfl⟩
      case unclosed hn => exact absurd begins hn
      case bare hb _ =>
        have hn := hb.unquoted c (congrArg List.head? et).symm
        exact absurd quote (ne_true_of_eq_false hn)
    case inl =>
      generalize textOf (token :: back) = text at takes ev begins
      cases takes <;> cases head
      case quoted _ hq' e =>
        cases hq.unique hq' (ev.trans e.symm)
        exact .inl ⟨rfl, rfl⟩
      case bare unquoted =>
        have starts := eq_false_of_ne_true fun starts => unquoted starts begins
        exact .inr (.inr ⟨rfl, exists_value_before h rfl starts⟩)
      all_goals cases kind <;> contradiction

theorem not_isValue_before {last : Lexeme}
    (h : lexemes previous text = front ++ last :: token :: back) (quoted : token.kind = .quoted) :
    ¬last.kind.IsValue := by
  rw [← List.singleton_append, ← List.append_assoc] at h
  have starts := starts_of_lexemes_eq h quoted
  rw [lastKind_append] at starts
  rintro (kind | kind) <;> simp [lastKind, kind, quoteStartsOperand] at starts

end Tokens

theorem IsQuoted.exists_cons {value : List Char} (h : IsQuoted value) :
    ∃ opening inner, opening :: inner = value ∧ isQuote opening := by
  cases h
  case mk opening inner quote _ => exact ⟨opening, inner, rfl, quote⟩

-- A quoted value anywhere in a text is a token, or a value token in front of it touches it.
theorem mem_tokenize_or_touched {text before value after : List Char} (hq : IsQuoted value)
    (e : before ++ (value ++ after) = text) :
    Lexeme.placed ⟨.quoted, value⟩ (byteLength before) ∈ tokenize text ∨
      ∃ token ∈ tokenize text, token.kind.IsValue ∧
        token.Touches (Lexeme.placed ⟨.quoted, value⟩ (byteLength before)) := by
  have ⟨c, value', ev, _⟩ := hq.exists_cons
  have e : before ++ c :: (value' ++ after) = text := by rw [← e, ← ev]; rfl
  obtain ⟨front, token, back, inner, inner', et, hm, ec, eb, er⟩ := exists_token_at e
  have er : value ++ after = c :: inner' ++ textOf back := by
    rw [← ev, List.cons_append, ← er]
    rfl
  obtain ⟨rfl, rfl⟩ | ⟨hi, kind⟩ | ⟨rfl, front', last, rfl, kind⟩ :=
    cases_at_quoted et hq ec er
  case inl =>
    rw [List.append_nil] at eb
    exact .inl (eb ▸ hm)
  case inr.inl =>
    refine .inr ⟨_, hm, kind, ?_⟩
    have := byteLength_pos hi
    have := congrArg byteLength eb
    have := congrArg byteLength ec
    simp only [byteLength_append] at *
    constructor <;> simp only [Lexeme.placed] <;> omega
  case inr.inr =>
    have hl : last ∈ lexemes none text := by simp [et]
    have := byteLength_pos (shaped_of_mem_lexemes hl).ne_nil
    refine .inr ⟨last.placed (byteLength (textOf front')), ?_, kind, ?_⟩
    · exact Token.mem_layout_iff.mpr ⟨front', last, token :: back, by simp [et], by simp⟩
    · rw [← eb]
      constructor <;> simp only [Lexeme.placed, textOf_append, textOf_cons, textOf_nil,
        List.append_nil, byteLength_append] <;> omega

theorem exists_eq_append_of_touches {text : List Char} {front back : List Lexeme} {part : Lexeme}
    {token : Token} (h : lexemes none text = front ++ part :: back) (hm : token ∈ tokenize text)
    (touches : token.Touches (part.placed (byteLength (textOf front)))) :
    ∃ front' last, front' ++ [last] = front ∧ last.kind = token.kind := by
  obtain ⟨front', last, back', e, rfl⟩ := Token.mem_layout_iff.mp hm
  have before := touches.before
  have reaches := touches.reaches
  simp only [Lexeme.placed, Nat.zero_add] at before reaches
  obtain ⟨others, rfl, _⟩ | ⟨ahead, rfl, _⟩ := cases_of_append_eq (h.symm.trans e.symm)
  case inl =>
    simp only [textOf_append, byteLength_append] at before
    omega
  case inr =>
    cases ahead
    case nil => exact ⟨front', last, rfl, rfl⟩
    case cons next ahead _ =>
      have hn : next ∈ lexemes none text := by simp [h]
      have := byteLength_pos (shaped_of_mem_lexemes hn).ne_nil
      simp only [textOf_append, textOf_cons, byteLength_append] at reaches
      omega

theorem not_touches_of_quoted {text : List Char} {token value : Token}
    (hv : value ∈ tokenize text) (quoted : value.kind = .quoted) (hm : token ∈ tokenize text)
    (kind : token.kind.IsValue) : ¬token.Touches value := by
  intro touches
  obtain ⟨front, part, back, e, rfl⟩ := Token.mem_layout_iff.mp hv
  rw [Nat.zero_add] at touches
  obtain ⟨front', last, rfl, hl⟩ := exists_eq_append_of_touches e.symm hm touches
  rw [List.append_assoc] at e
  exact not_isValue_before e.symm quoted (hl ▸ kind)

variable {form : Form} {stage : Stage} {parts : List Lexeme}

theorem IsValue.isQuoted_of_isQuote {value : Lexeme} {rest inner : List Char} {c : Char}
    (h : IsValue value rest) (e : c :: inner = value.text) (quote : isQuote c) :
    value.kind = .quoted ∧ IsQuoted value.text := by
  cases h
  case quoted hq => exact ⟨rfl, hq⟩
  case bare hb =>
    have hn := hb.unquoted c (congrArg List.head? e).symm
    exact absurd quote (ne_true_of_eq_false hn)

theorem Row.mem_layout_or_inside (h : Row form stage parts) {token : Token}
    (hm : token ∈ tokenize (textOf parts)) (quoted : token.kind = .quoted) :
    token ∈ Token.layout 0 parts ∨
      ∃ value ∈ Token.layout 0 parts, value.kind.IsValue ∧ token.StartsInside value := by
  obtain ⟨front, ⟨kind, text⟩, back, e, rfl⟩ := Token.mem_layout_iff.mp hm
  cases quoted
  have hl : ⟨.quoted, text⟩ ∈ lexemes none (textOf parts) := by simp [← e]
  have hq : IsQuoted text := (shaped_of_mem_lexemes hl).isQuoted rfl
  have ⟨c, text', et, quote⟩ := hq.exists_cons
  have all : textOf parts = textOf front ++ c :: (text' ++ textOf back) := by
    refine (flatMap_text_lexemes none (textOf parts)).symm.trans ?_
    rw [← e, ← List.cons_append, et]
    exact textOf_append front _
  rw [← List.append_nil parts] at h
  obtain ⟨front', value, back', inner, inner', rfl, hv, ev, ef, eb⟩ :=
    h.exists_value_of_quote all quote
  have placed : value.placed (byteLength (textOf front')) ∈
      Token.layout 0 (front' ++ value :: back') :=
    Token.mem_layout_iff.mpr ⟨front', value, back', rfl, by simp⟩
  cases inner
  case nil =>
    obtain ⟨kind, hq'⟩ := hv.isQuoted_of_isQuote ev quote
    have e : value.text ++ textOf back' = text ++ textOf back := by
      rw [← ev, ← et, List.nil_append, List.cons_append, eb, List.cons_append]
    have same := hq'.unique hq e
    obtain ⟨_, _⟩ := value
    cases kind
    cases same
    rw [List.append_nil] at ef
    rw [Nat.zero_add, ← ef]
    exact .inl placed
  case cons d inner =>
    refine .inr ⟨_, placed, hv.kind, ?_⟩
    have := congrArg byteLength ev
    have := byteLength_pos (List.cons_ne_nil d inner)
    have := byteLength_pos (List.cons_ne_nil c inner')
    simp only [byteLength_append] at *
    constructor <;> simp only [Lexeme.placed, ← ef, byteLength_append] <;> omega

-- By induction on the run. None of its quotes starts a value.
theorem kind_ne_quoted_of_bare {previous : Option TokenKind} {text : List Char}
    (ht : ∀ c ∈ text, isBare c) (hn : ¬QuotesBehind text)
    (hq : ∀ c ∈ text.head?, isQuote c → quoteStartsOperand previous = false) :
    ∀ part ∈ lexemes previous text, part.kind ≠ .quoted := by
  fun_induction lexemes previous text
  case case1 => simp
  case case2 previous c text scan hi =>
    have takes : Takes previous (c :: text) scan := Scan.takes_next
    clear_value scan
    obtain ⟨connective, word, back, _, e, unquoted, rfl⟩ | ⟨_, rfl⟩ :=
      takes.cases_of_bare ht hn (hq c rfl)
    case inl =>
      have tail := hi (fun d hd => ht d (e ▸ List.mem_append_right word hd))
        (fun h => hn (e ▸ h.append word))
        fun d hd quote => absurd quote (ne_true_of_eq_false (unquoted d hd))
      simpa using tail
    case inr =>
      have tail := hi (fun d hd => ht d (List.mem_cons_of_mem c hd)) (fun h => hn (h.append [c]))
        fun _ _ _ => rfl
      simpa using tail

theorem kind_ne_quoted_of_mem_splitKey {name : List Char} :
    ∀ piece ∈ splitKey name, piece.kind ≠ .quoted := by
  fun_induction splitKey name
  case case1 hi => simpa using hi
  case case2    => simp

theorem textOf_splitKey (name : List Char) : textOf (splitKey name) = name := by
  fun_induction splitKey name
  case case1 hi => rw [textOf_cons, hi, List.take_append_drop]
  case case2    => simp

end Grammar

theorem Lexeme.textOf_fragments {form : Form} (part : Lexeme) :
    textOf (part.fragments form) = part.text := by
  rw [fragments]
  split
  case isTrue  => exact textOf_splitKey part.text
  case isFalse => exact part.textOf_pieces

theorem Grammar.Row.fragments_cases {form : Form} {stage : Stage} {parts : List Lexeme}
    (h : Row form stage parts) (hr : Recoverable form parts) {part : Lexeme} (hm : part ∈ parts) :
    part.fragments form = [part] ∨
      part.kind ≠ .quoted ∧ ∀ piece ∈ part.fragments form, piece.kind ≠ .quoted := by
  by_cases hk : part.kind = .key
  case pos =>
    rw [Lexeme.fragments, if_pos hk]
    exact .inr ⟨by simp [hk], kind_ne_quoted_of_mem_splitKey⟩
  case neg =>
    rw [Lexeme.fragments_of_ne_key hk, Lexeme.pieces]
    split
    case isFalse => exact .inl rfl
    case isTrue hp =>
      obtain ⟨_, _, fits⟩ := h.exists_fits hm
      have hb := fits.isBare hp.2
      refine .inr ⟨by simp [hp.2], ?_⟩
      exact kind_ne_quoted_of_bare hb.bare (hr.values hp.1 part hm hp.2)
        fun c hc quote => absurd quote (ne_true_of_eq_false (hb.unquoted c hc))

namespace Token

variable {kind : TokenKind} {parts : List Lexeme} {offset : Nat}

theorem filter_layout_eq_nil (h : ∀ part ∈ parts, part.kind ≠ kind) :
    (layout offset parts).filter (·.kind = kind) = [] := by
  rw [List.filter_eq_nil_iff]
  intro token hm
  obtain ⟨front, part, back, rfl, rfl⟩ := mem_layout_iff.mp hm
  rw [decide_eq_true_iff]
  exact h part (by simp)

-- By induction on the parts. What falls apart takes up the same place as before.
theorem filter_layout_flatMap {f : Lexeme → List Lexeme}
    (ht : ∀ part, textOf (f part) = part.text)
    (hf : ∀ part ∈ parts,
      f part = [part] ∨ part.kind ≠ kind ∧ ∀ piece ∈ f part, piece.kind ≠ kind) :
    (layout offset (parts.flatMap f)).filter (·.kind = kind) =
      (layout offset parts).filter (·.kind = kind) := by
  induction parts generalizing offset
  case nil => rfl
  case cons part parts hi =>
    have ⟨first, later⟩ := List.forall_mem_cons.mp hf
    have split : layout offset (part :: parts) =
      layout offset [part] ++ layout (offset + byteLength part.text) parts := rfl
    rw [List.flatMap_cons, layout_append, List.filter_append, split, List.filter_append]
    congr 1
    case e_a =>
      obtain e | ⟨hn, hp⟩ := first
      case inl => rw [e]
      case inr => rw [filter_layout_eq_nil hp, filter_layout_eq_nil (by simpa using hn)]
    case e_a => exact ht part ▸ hi later

end Token

-- A quoted value that has been read is a token, unless a value token in front of its opening quote
-- touches it, and a quoted token is a value that has been read, unless it starts inside another
-- one. That takes a key of which less than two letters are left behind connectives, or a quote that
-- stands directly behind a connective in a bare value without a key.
theorem quoted_mem_tokenize {maxDepth : Nat} {text : List Char} {r : Reading}
    (h : Reading.ofText maxDepth text = .ok r) :
    (∀ value ∈ Token.layout 0 r.lexemes, value.kind = .quoted → (value ∈ tokenize text ↔
      ¬∃ token ∈ tokenize text, token.kind.IsValue ∧ token.Touches value)) ∧
    (∀ token ∈ tokenize text, token.kind = .quoted → (token ∈ Token.layout 0 r.lexemes ↔
      ¬∃ value ∈ Token.layout 0 r.lexemes, value.kind.IsValue ∧ token.StartsInside value)) ∧
    ((∀ form, r.progress.form = some form → Recoverable form r.lexemes) →
      (tokenize text).filter (·.kind = .quoted) =
        (Token.layout 0 r.lexemes).filter (·.kind = .quoted)) := by
  obtain ⟨form, parts, hs, rfl, rfl⟩ := Reading.ofText_eq_ok_iff.mp h
  simp only [Reading.lexemes_finished, Reading.form_finished]
  refine ⟨fun value hl quoted => ?_, fun token hm quoted => ?_, fun recoverable => ?_⟩
  case refine_1 =>
    constructor
    case mp =>
      rintro hv ⟨token, hm, kind, touches⟩
      exact not_touches_of_quoted hv quoted hm kind touches
    case mpr =>
      obtain ⟨before, ⟨kind, word⟩, after, rfl, rfl⟩ := Token.mem_layout_iff.mp hl
      cases quoted
      have ⟨_, fits, _⟩ := hs.row.fits_of_append
      have hq : IsQuoted word := fits.shaped.isQuoted rfl
      have e : textOf before ++ (word ++ textOf after) =
        textOf (before ++ ⟨.quoted, word⟩ :: after) := by simp
      rw [Nat.zero_add]
      exact (mem_tokenize_or_touched hq e).resolve_right
  case refine_2 =>
    constructor
    case mp =>
      rintro hl ⟨value, hv, _, ⟨opens, inside⟩⟩
      have := Token.stop_le_start hv hl opens
      omega
    case mpr => exact (hs.row.mem_layout_or_inside hm quoted).resolve_right
  case refine_3 =>
    have hr := recoverable form rfl
    rw [tokenize, hs.row.lexemes_eq_fragments hr (.inr ⟨rfl, rfl⟩)]
    exact Token.filter_layout_flatMap Lexeme.textOf_fragments fun _ => hs.row.fragments_cases hr

-- One sentence with a quote behind a connective, and one with a key that starts with one.
theorem quoted_mem_tokenize_of_values :
    (∃ r, Reading.ofText 0 "xor\"b OR \"c d\"".toList = .ok r ∧
      (⟨.quoted, ⟨9, 14⟩⟩ ∈ tokenize "xor\"b OR \"c d\"".toList ↔
        ¬∃ token ∈ tokenize "xor\"b OR \"c d\"".toList,
          token.kind.IsValue ∧ token.Touches ⟨.quoted, ⟨9, 14⟩⟩) ∧
      (⟨.quoted, ⟨3, 10⟩⟩ ∈ Token.layout 0 r.lexemes ↔
        ¬∃ value ∈ Token.layout 0 r.lexemes,
          value.kind.IsValue ∧ Token.StartsInside ⟨.quoted, ⟨3, 10⟩⟩ value)) ∧
    ∃ r, Reading.ofText 0 "ORDER=\"c d\"".toList = .ok r ∧
      (tokenize "ORDER=\"c d\"".toList).filter (·.kind = .quoted) =
        (Token.layout 0 r.lexemes).filter (·.kind = .quoted) := by
  constructor
  case left =>
    have h := quoted_mem_tokenize (show Reading.ofText 0 "xor\"b OR \"c d\"".toList = .ok _ by cbv)
    have ht : tokenize "xor\"b OR \"c d\"".toList =
        [⟨.bare, ⟨0, 1⟩⟩, ⟨.connective .or, ⟨1, 3⟩⟩, ⟨.quoted, ⟨3, 10⟩⟩, ⟨.bare, ⟨10, 11⟩⟩,
          ⟨.blank, ⟨11, 12⟩⟩, ⟨.bare, ⟨12, 13⟩⟩, ⟨.bare, ⟨13, 14⟩⟩] := by cbv
    refine ⟨_, by cbv, h.1 _ (by decide) rfl, h.2.1 _ ?_ rfl⟩
    rw [ht]
    decide
  case right =>
    refine ⟨_, by cbv, (quoted_mem_tokenize (show Reading.ofText 0 _ = .ok _ by cbv)).2.2 ?_⟩
    intro form hf
    cases hf
    constructor
    case keys =>
      have key : splitKey "ORDER".toList =
          [⟨.connective .or, "OR".toList⟩, ⟨.key, "DER".toList⟩] := by cbv
      intro part hm hk
      have name : part.text = "ORDER".toList := by
        revert part
        decide
      intro piece hp left
      have e : piece.text = "DER".toList := by
        rw [name, key] at hp
        revert piece
        decide
      rw [e]
      exact ⟨by decide, by simp [isLetter]⟩
    case values => simp

-- The quote behind the `or` of the first value opens a quoted value, which is closed by the quote
-- that opens the second one.
theorem quoted_lost : ¬∀ (maxDepth : Nat) (text : List Char) (r : Reading),
    Reading.ofText maxDepth text = .ok r → (tokenize text).filter (·.kind = .quoted) =
      (Token.layout 0 r.lexemes).filter (·.kind = .quoted) := by
  intro agrees
  have e := agrees 0 "xor\"b OR \"c d\"".toList _ (by cbv)
  have ht : (tokenize "xor\"b OR \"c d\"".toList).filter (·.kind = .quoted) =
      [⟨.quoted, ⟨3, 10⟩⟩] := by cbv
  rw [ht] at e
  exact absurd e (by decide)

end BoolSearch
