import BoolSearch.Proofs.Readers

namespace BoolSearch

open Grammar

namespace Reading

variable {r r' : Reading} {form : Form} {parts others : List Lexeme} {rest rest' : List Char}
  {room : Nat}

theorem Reads.advances {read : Reading → Outcome} (hr : Reads read fun _ => SpacedBlock room) :
    Advances read := by
  intro r r' h
  obtain ⟨form, _, rest, _, ⟨gap, body, _, rfl, hd⟩, e, rfl⟩ := (hr r r').mp h
  have ⟨c, text, eb, _⟩ := hd.opens
  rw [rest_past, ← e, textOf_append, eb]
  simp
  omega

theorem blanks_append (gap gap' : List Char) :
    Scan.blanks (gap ++ gap') = Scan.blanks gap ++ Scan.blanks gap' :=
  List.map_append

-- Blanks in front of what follows a connective belong to the gap behind it.
theorem SpacedExpression.join {gap gap₁ gap₂ word : List Char} {connective : Connective}
    {body : List Lexeme} {grouped : Bool} (hg : IsBlanks gap) (hg₁ : IsBlanks gap₁)
    (hg₂ : IsBlanks gap₂) (hn : connective ≠ .not) (spells : Spells connective word)
    (whole : ∀ c ∈ (gap₂ ++ (textOf parts ++ rest)).head?, endsWord c)
    (block : Derives form .block room body (gap₁ ++ (word ++ (gap₂ ++ (textOf parts ++ rest)))))
    (h : SpacedExpression room grouped form parts rest) :
    SpacedExpression room grouped form (Scan.blanks gap ++ (body ++ (Scan.blanks gap₁ ++
      (⟨.connective connective, word⟩ :: (Scan.blanks gap₂ ++ parts))))) rest := by
  obtain ⟨gap₃, others, gap', hg₃, hg', rfl, hd, stop⟩ := h
  have e : gap₂ ++ (textOf (Scan.blanks gap₃ ++ (others ++ Scan.blanks gap')) ++ rest) =
      gap₂ ++ gap₃ ++ (textOf others ++ (gap' ++ rest)) := by simp
  rw [e] at whole block
  refine ⟨gap, _, gap', hg, hg', ?_, .joined block hg₁ hn spells whole (hg₂.append hg₃) hd, stop⟩
  simp [blanks_append]

theorem SpacedExpression.adjoin {gap gap₁ : List Char} {body : List Lexeme} (hg : IsBlanks gap)
    (hg₁ : IsBlanks gap₁) (hb : ∀ c ∈ (textOf parts ++ rest).head?, isBlank c = false)
    (apart : ∀ c ∈ (textOf parts ++ rest).head?, isOperandStart c = false)
    (block : Derives form .block room body (gap₁ ++ (textOf parts ++ rest)))
    (h : SpacedExpression room true form parts rest) :
    SpacedExpression room true form
      (Scan.blanks gap ++ (body ++ (Scan.blanks gap₁ ++ parts))) rest := by
  obtain ⟨gap₂, others, gap', hg₂, hg', rfl, hd, stop⟩ := h
  have e : textOf (Scan.blanks gap₂ ++ (others ++ Scan.blanks gap')) ++ rest =
      gap₂ ++ (textOf others ++ (gap' ++ rest)) := by simp
  rw [e] at hb apart block
  cases hg₂.eq_nil hb
  have ⟨c, text, eo, _⟩ := hd.opens
  rw [List.nil_append, head?_append_of_ne_nil (by simp [eo])] at apart
  refine ⟨gap, _, gap', hg, hg', ?_, .adjoined block hg₁ apart hd, stop⟩
  simp [Scan.blanks]

-- By induction on the run. What comes next depends on the block that has just been read.
theorem exists_derives_of_sequence {read : Reading → Outcome}
    (hr : Reads read fun _ => SpacedBlock room) (h : sequence read r = .ok r') :
    ∃ form parts rest, r.Admits form ∧ SpacedExpression room r.isGrouped form parts rest ∧
      textOf parts ++ rest = r.rest ∧ r' = r.past form parts rest := by
  fun_induction sequence read r
  case case1 => cases h
  case case2 => cases h
  case case3 r s hs t ht =>
    cases h
    obtain ⟨form, _, text, ha, ⟨gap, body, hg, rfl, hd⟩, e, rfl⟩ := (hr _ _).mp hs
    obtain ⟨gap', rest, hg', hb, e', hskip⟩ := exists_skipBlanks_eq_along (r.past form _ text)
    rw [Reading.next, hskip, along_past] at ht
    obtain ⟨hdone, stop⟩ | ⟨_, _, _, _, _, _, _, _, _, hmore⟩ | ⟨_, _, hmore⟩ :=
      proceed_cases rfl (by simpa using hb) ht
    case inl =>
      cases hdone
      rw [rest_past] at e'
      subst e'
      refine ⟨form, _, rest, ha, ⟨gap, body, gap', hg, hg', rfl, .single hd, stop⟩, ?_, ?_⟩
      · simpa using e
      · simp
    case inr.inl => cases hmore
    case inr.inr => cases hmore
  case case4 r s hs t ht _ hi =>
    obtain ⟨form, _, text, ha, ⟨gap, body, hg, rfl, hd⟩, e, rfl⟩ := (hr _ _).mp hs
    obtain ⟨gap₁, text₁, hg₁, hb, e₁, hskip⟩ := exists_skipBlanks_eq_along (r.past form _ text)
    rw [Reading.next, hskip, along_past] at ht
    rw [rest_past] at e₁
    obtain ⟨hdone, _⟩ | ⟨connective, word, gap₂, text₂, hn, spells, hg₂, e₂, whole, hmore⟩ |
      ⟨hgrouped, apart, hmore⟩ := proceed_cases rfl (by simpa using hb) ht
    case inl => cases hdone
    case inr.inl =>
      cases hmore
      obtain ⟨form', parts, rest, ha', spaced, e₃, rfl⟩ := hi h
      simp only [admits_setLatest, admits_along, admits_past, isGrouped_setLatest, isGrouped_along,
        isGrouped_past, rest_setLatest, rest_along] at ha' spaced e₂ e₃
      subst ha' e₁ e₂ e₃
      refine ⟨form, _, rest, ha, .join hg hg₁ hg₂ hn spells whole hd spaced, ?_, by simp⟩
      rw [← e]
      simp
    case inr.inr =>
      cases hmore
      obtain ⟨form', parts, rest, ha', spaced, e₃, rfl⟩ := hi h
      simp only [admits_past, isGrouped_past, rest_past] at ha' spaced e₃ hgrouped apart
      subst ha' e₁ e₃
      rw [hgrouped] at spaced ⊢
      refine ⟨form, _, rest, ha, .adjoin hg hg₁ hb apart hd spaced, ?_, by simp⟩
      rw [← e]
      simp
  case case5 r s hs t ht short =>
    have := hr.advances _ _ hs
    have := length_rest_le_of_next ht
    simp only [Next.reading] at this
    omega

def continued (read : Reading → Outcome) (r : Reading) : Outcome :=
  match r.next with
  | .error rejection => .error rejection
  | .ok (.done r')   => .ok r'
  | .ok (.more r')   => sequence read r'

theorem sequence_eq_bind {read : Reading → Outcome} (hr : Advances read) (r : Reading) :
    sequence read r = read r >>= continued read := by
  rw [sequence_eq_of_advances hr]
  cases read r <;> rfl

theorem sequence_of_ok {read : Reading → Outcome} {s : Reading} (hr : Advances read)
    (hs : read r = .ok s) : sequence read r = continued read s := by
  rw [sequence_eq_bind hr, hs]
  rfl

theorem continued_of_next_done {read : Reading → Outcome} (h : r.next = .ok (.done r')) :
    continued read r = .ok r' := by
  rw [continued, h]

theorem continued_of_next_more {read : Reading → Outcome} (h : r.next = .ok (.more r')) :
    continued read r = sequence read r' := by
  rw [continued, h]

-- By induction on the phrase. Its blocks are read in turn, and behind each of them but the last
-- one `next` goes on.
theorem sequence_eq_continued {read : Reading → Outcome} {phrase : Phrase} {body : List Lexeme}
    {gap tail : List Char} (hd : Derives form phrase room body tail)
    (hr : Reads read fun _ => SpacedBlock room) (hp : phrase = .expression r.isGrouped)
    (ha : r.Admits form) (hg : IsBlanks gap) (e : gap ++ (textOf body ++ tail) = r.rest) :
    sequence read r = continued read (r.past form (Scan.blanks gap ++ body) tail) := by
  induction hd generalizing r gap
  case leaf     => cases hp
  case group    => cases hp
  case asserted => cases hp
  case negated  => cases hp
  case single body tail room grouped block _ =>
    exact sequence_of_ok hr.advances ((hr r _).mpr
      ⟨form, _, _, ha, ⟨gap, body, hg, rfl, block⟩, by simpa using e, rfl⟩)
  case joined connective word gap₁ gap₂ tail body others room grouped block hg₁ hn spells whole hg₂
      hd _ hi =>
    cases hp
    have hblock := (hr r _).mpr ⟨form, _, _, ha, ⟨gap, body, hg, rfl, block⟩, by simpa using e, rfl⟩
    rw [sequence_of_ok hr.advances hblock, continued_of_next_more
      (next_of_joining hg₁ hn spells hg₂ hd.exists_opens whole rfl)]
    rw [hi hr (by simp) (by simp) isBlanks_nil (by simp)]
    simp [Scan.blanks]
  case adjoined gap₁ tail body others room block hg₁ apart hd _ hi =>
    have grouped : r.isGrouped := by simpa using hp.symm
    have hblock := (hr r _).mpr ⟨form, _, _, ha, ⟨gap, body, hg, rfl, block⟩, by simpa using e, rfl⟩
    have apart : ∀ c ∈ (textOf others ++ tail).head?, isOperandStart c = false := by
      obtain ⟨c, text, eo, _⟩ := hd.opens
      rwa [head?_append_of_ne_nil (by simp [eo])]
    rw [sequence_of_ok hr.advances hblock, continued_of_next_more
      (next_of_apart hg₁ (by simpa using grouped) hd.exists_opens apart rfl)]
    rw [hi hr (by simp [grouped]) (by simp) isBlanks_nil (by simp)]
    simp [Scan.blanks]

theorem reads_sequence {read : Reading → Outcome} (hr : Reads read fun _ => SpacedBlock room) :
    Reads (sequence read) (SpacedExpression room) := by
  intro r r'
  constructor
  case mp => exact exists_derives_of_sequence hr
  case mpr =>
    rintro ⟨form, _, rest, ha, ⟨gap, body, gap', hg, hg', rfl, hd, stop⟩, e, rfl⟩
    have stop : Stops (r.past form (Scan.blanks gap ++ body) (gap' ++ rest)).isGrouped rest := stop
    rw [sequence_eq_continued hd hr rfl ha hg (by simpa using e),
      continued_of_next_done (next_of_stops hg' stop rfl)]
    simp

-- By induction on the number of groups that may be opened inside each other.
theorem reads_expression (room : Nat) : Reads (expression room) (SpacedExpression room) := by
  induction room
  case zero =>
    rw [expression_eq_sequence]
    exact reads_sequence (reads_block (reads_operand fun _ e => by cases e))
  case succ room hi =>
    rw [expression_eq_sequence]
    refine reads_sequence (reads_block (reads_operand ?_))
    rintro _ ⟨⟩
    exact hi

theorem reads_nested_block (room : Nat) :
    Reads (block (insideOf room)) fun _ => SpacedBlock room :=
  reads_block (reads_operand fun n _ => reads_expression n)

def finished (form : Form) (parts : List Lexeme) : Reading :=
  (start []).past form parts []

theorem finish_eq_ok_iff : r.finish = .ok r' ↔ r.rest = [] ∧ r.progress.depth = 0 ∧ r' = r := by
  rw [finish]
  by_cases hr : r.rest = []
  case neg => simp [hr, reject]
  case pos =>
    by_cases hd : r.progress.depth = 0
    case neg => simp [hr, hd, reject]
    case pos => simp [hr, hd, eq_comm]

theorem ofText_eq_ok_iff {maxDepth : Nat} {text : List Char} :
    ofText maxDepth text = .ok r ↔ ∃ form parts, Sentence form maxDepth parts ∧
      textOf parts = text ∧ r = finished form parts := by
  rw [ofText, bind_eq_ok_iff]
  constructor
  case mp =>
    rintro ⟨s, hs, hf⟩
    obtain ⟨gap₀, text₀, hg₀, hb, e₀, hskip⟩ := exists_skipBlanks_eq_along (start text)
    rw [hskip] at hs
    obtain ⟨form, _, rest, _, ⟨gap, body, gap', hg, hg', rfl, hd, stop⟩, e, rfl⟩ :=
      (reads_expression _ _ _).mp hs
    rw [skipBlanks_of_head? fun c hc => (stop c hc).1] at hf
    obtain ⟨hr, _, rfl⟩ := finish_eq_ok_iff.mp hf
    cases hr
    rw [List.append_nil] at hd
    refine ⟨form, _, .mk (hg₀.append hg) hg' hd, ?_, ?_⟩
    · rw [rest_along] at e
      rw [rest_start] at e₀
      rw [← e₀, ← e]
      simp
    · rw [past_along, blanks_append]
      simp [finished, past, start]
  case mpr =>
    rintro ⟨form, _, hs, e, rfl⟩
    cases hs
    case mk gap gap' parts hg hg' hd =>
      have hskip := skipBlanks_eq_along (r := start text) hg
        (fun c hc => (hd.head?_opens c hc).not_blank) (by simpa using e)
      have stop : Stops false [] := by simp [Stops]
      have spaced : SpacedExpression maxDepth false form (parts ++ Scan.blanks gap') [] :=
        ⟨[], parts, gap', isBlanks_nil, hg', rfl, by simpa using hd, stop⟩
      have hread := (reads_expression maxDepth ((start text).along (Scan.blanks gap)
        (textOf parts ++ gap')) _).mpr ⟨form, _, [], admits_start text, spaced, by simp, rfl⟩
      rw [hskip]
      refine ⟨_, hread, ?_⟩
      rw [past_along, skipBlanks_of_head? (by simp)]
      refine finish_eq_ok_iff.mpr ⟨rfl, rfl, ?_⟩
      simp [finished, past, start]

end Reading

theorem isOk_validate_iff {maxDepth : Nat} {text : List Char} :
    (∃ progress, validate maxDepth text = .ok progress) ↔
      ∃ r, Reading.ofText maxDepth text = .ok r := by
  rw [validate]
  cases Reading.ofText maxDepth text <;> simp

-- A text passes exactly if it is derived by the grammar.
theorem validate_accepts_grammar (maxDepth : Nat) (text : List Char) :
    (∃ progress, validate maxDepth text = .ok progress) ↔ Accepts maxDepth text := by
  rw [isOk_validate_iff]
  simp only [Reading.ofText_eq_ok_iff]
  constructor
  case mp =>
    rintro ⟨_, form, parts, hs, e, _⟩
    exact ⟨form, parts, hs, e⟩
  case mpr =>
    rintro ⟨form, parts, hs, e⟩
    exact ⟨_, form, parts, hs, e, rfl⟩

end BoolSearch
