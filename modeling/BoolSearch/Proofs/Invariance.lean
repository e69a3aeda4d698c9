import BoolSearch.Proofs.Classes
import BoolSearch.Proofs.DepthLimit

namespace BoolSearch

namespace Reading

def typical (r : Reading) : Reading where
  parts := r.parts.map Lexeme.typical
  rest := r.rest.map BoolSearch.typical
  progress := r.progress

end Reading

def Rejection.typical (rejection : Rejection) : Rejection :=
  ⟨rejection.kind, rejection.reading.typical⟩

namespace Reading

def Next.typical : Next → Next
  | .done r => .done r.typical
  | .more r => .more r.typical

def typicalOutcome : Outcome → Outcome
  | .ok r            => .ok r.typical
  | .error rejection => .error rejection.typical

def typicalNext : Except Rejection Next → Except Rejection Next
  | .ok next         => .ok next.typical
  | .error rejection => .error rejection.typical

-- A reader that does with typical characters what it does with others.
def SeesClasses (read : Reading → Outcome) : Prop :=
  ∀ r, read r.typical = typicalOutcome (read r)

variable {r : Reading}

@[simp] theorem rest_typical (r : Reading) : r.typical.rest = r.rest.map BoolSearch.typical := rfl

@[simp] theorem progress_typical (r : Reading) : r.typical.progress = r.progress := rfl

theorem typical_start (text : List Char) :
    (start text).typical = start (text.map BoolSearch.typical) := rfl

theorem typical_push (r : Reading) (kind : TokenKind) (text rest : List Char) :
    (r.push kind text rest).typical =
      r.typical.push kind (text.map BoolSearch.typical) (rest.map BoolSearch.typical) := rfl

theorem typical_pushBlanks (r : Reading) (blanks rest : List Char) :
    (r.pushBlanks blanks rest).typical =
      r.typical.pushBlanks (blanks.map BoolSearch.typical) (rest.map BoolSearch.typical) := by
  simp [typical, pushBlanks, Lexeme.typical]

theorem typical_skipBlanks (r : Reading) : r.skipBlanks.typical = r.typical.skipBlanks := by
  rw [skipBlanks, typical_pushBlanks, skipBlanks, rest_typical, skipBlanks_typical,
    takeWhile_typical isBlank_typical]

theorem typical_setLatest (r : Reading) (latest : Latest) :
    (r.setLatest latest).typical = r.typical.setLatest latest := rfl

theorem typical_setForm (r : Reading) (form : Form) :
    (r.setForm form).typical = r.typical.setForm form := rfl

theorem typical_pushConnective (r : Reading) (connective : Connective) :
    (r.pushConnective connective).typical = r.typical.pushConnective connective := by
  rw [pushConnective, typical_push, pushConnective, rest_typical, List.map_take, List.map_drop]

theorem typical_pushNot (r : Reading) : r.pushNot.typical = r.typical.pushNot := by
  rw [pushNot, typical_setLatest, typical_skipBlanks, typical_pushConnective]
  rfl

theorem typical_pushJoining (r : Reading) (connective : Connective) :
    (r.pushJoining connective).typical = r.typical.pushJoining connective := by
  rw [pushJoining, typical_skipBlanks, typical_setLatest, typical_pushConnective]
  rfl

theorem typical_pushKey (r : Reading) (head : KeyHead) :
    (r.pushKey head).typical = r.typical.pushKey head.typical := by
  have equals : BoolSearch.typical '=' = '=' := by decide
  simp only [pushKey, typical_skipBlanks, typical_push, typical_pushBlanks, KeyHead.typical,
    List.map_append, List.map_cons, List.map_nil, equals]

theorem typical_openGroup (r : Reading) (rest : List Char) :
    (r.openGroup rest).typical = r.typical.openGroup (rest.map BoolSearch.typical) := rfl

theorem SeesClasses.bind {read read' : Reading → Outcome} (h : SeesClasses read)
    (h' : SeesClasses read') : SeesClasses fun r => read r >>= read' := by
  intro r
  dsimp only
  rw [h r]
  cases read r
  case error => rfl
  case ok s  => exact h' s

theorem seesClasses_refuseConnective : SeesClasses refuseConnective := by
  intro r
  rw [refuseConnective, refuseConnective, rest_typical, standalone?_typical]
  cases standalone? r.rest <;> rfl

theorem seesClasses_value : SeesClasses value := by
  intro r
  cases hr : r.rest
  case nil =>
    simp only [value, rest_typical, hr]
    rfl
  case cons c text =>
    have run := takeWhile_typical isBare_typical (c :: text)
    have after := dropWhile_typical isBare_typical (c :: text)
    have quoted := quoted?_typical (c :: text)
    simp only [value, rest_typical, hr]
    rw [List.map_cons] at run after quoted ⊢
    simp only [isQuote_typical, run, after, quoted]
    split
    case isTrue  => cases quoted? (c :: text) <;> rfl
    case isFalse => cases (c :: text).takeWhile isBare <;> rfl

theorem seesClasses_formed : SeesClasses formed := by
  intro r
  rw [formed, formed, rest_typical, key?_typical, progress_typical]
  cases key? r.rest
  case some head =>
    simp only [Option.map_some]
    split
    case isTrue => rfl
    case isFalse =>
      rw [← typical_setForm, ← typical_pushKey]
      exact seesClasses_value _
  case none =>
    simp only [Option.map_none]
    split
    case isTrue  => rfl
    case isFalse => exact seesClasses_value (r.setForm .plain)

theorem seesClasses_leaf : SeesClasses leaf := by
  intro r
  rw [leaf, leaf, seesClasses_formed r]
  cases r.formed <;> rfl

theorem seesClasses_groupEnd : SeesClasses groupEnd := by
  intro r
  rw [groupEnd, groupEnd, ← typical_skipBlanks, rest_typical]
  generalize r.skipBlanks = s
  cases hs : s.rest
  case nil => rfl
  case cons c rest =>
    by_cases hc : c = ')'
    case pos =>
      subst hc
      rfl
    case neg =>
      have hc' : BoolSearch.typical c ≠ ')' := (typical_eq_iff (by decide)).not.mpr hc
      simp [hc, hc', reject, typicalOutcome, Rejection.typical]

def InsideSeesClasses (inside : Option (Reading → Outcome)) : Prop :=
  ∀ read ∈ inside, SeesClasses read

theorem seesClasses_group {inside : Option (Reading → Outcome)} (h : InsideSeesClasses inside)
    (r : Reading) (rest : List Char) :
    r.typical.group inside (rest.map BoolSearch.typical) =
      typicalOutcome (r.group inside rest) := by
  cases inside
  case none => rfl
  case some read =>
    rw [group, group, ← typical_openGroup, ← typical_skipBlanks]
    exact (h read rfl).bind seesClasses_groupEnd _

theorem seesClasses_operand {inside : Option (Reading → Outcome)} (h : InsideSeesClasses inside) :
    SeesClasses (operand inside) := by
  intro r
  rw [operand, operand, rest_typical]
  cases hr : r.rest
  case nil => exact seesClasses_leaf r
  case cons c rest =>
    by_cases hc : c = '('
    case pos =>
      subst hc
      exact seesClasses_group h r rest
    case neg =>
      have hc' : BoolSearch.typical c ≠ '(' := (typical_eq_iff (by decide)).not.mpr hc
      simpa [hc, hc'] using seesClasses_leaf r

theorem seesClasses_negation : SeesClasses negation := by
  intro r
  rw [negation, negation, rest_typical, keyword?_typical, ← typical_pushNot, rest_typical,
    List.isEmpty_map]
  split
  case isFalse => rfl
  case isTrue =>
    split
    case isTrue  => rfl
    case isFalse => exact seesClasses_refuseConnective r.pushNot

theorem seesClasses_block {inside : Option (Reading → Outcome)} (h : InsideSeesClasses inside) :
    SeesClasses (block inside) := by
  intro r
  rw [block, block, ← typical_skipBlanks, rest_typical, List.isEmpty_map]
  split
  case isTrue => rfl
  case isFalse =>
    have negated := seesClasses_refuseConnective.bind seesClasses_negation
    exact (negated.bind (seesClasses_operand h)) r.skipBlanks

theorem join_typical (r : Reading) (connective : Connective) :
    r.typical.join connective = typicalNext (r.join connective) := by
  rw [join, join, ← typical_pushJoining, rest_typical]
  generalize r.pushJoining connective = s
  cases hs : s.rest
  case nil => rfl
  case cons c rest =>
    by_cases hc : c = ')'
    case pos =>
      subst hc
      rfl
    case neg =>
      have hc' : BoolSearch.typical c ≠ ')' := (typical_eq_iff (by decide)).not.mpr hc
      simp [hc, hc', typicalNext, Next.typical]

theorem proceed_typical (r : Reading) : r.typical.proceed = typicalNext r.proceed := by
  rw [proceed, proceed, rest_typical, progress_typical]
  cases hr : r.rest
  case nil => rfl
  case cons c rest =>
    have closing : BoolSearch.typical c = ')' ↔ c = ')' := typical_eq_iff (by decide)
    have joins := nextJoins_typical (c :: rest)
    have joining := joining?_typical (c :: rest)
    rw [List.map_cons] at joins joining ⊢
    simp only [isOperandStart_typical, joins, joining, closing]
    split
    case isTrue => rfl
    case isFalse =>
      cases joining? (c :: rest)
      case some connective => exact join_typical r connective
      case none =>
        dsimp only
        split <;> rfl

theorem next_typical (r : Reading) : r.typical.next = typicalNext r.next := by
  rw [next, next, ← typical_skipBlanks, proceed_typical]

-- By induction on the run. Typical characters are as many as the characters that they stand for.
theorem seesClasses_sequence {read : Reading → Outcome} (h : SeesClasses read) :
    SeesClasses (sequence read) := by
  intro r
  fun_induction sequence read r
  case case1 r rejection hr =>
    rw [sequence, h r, hr]
    rfl
  case case2 r s hr rejection hn =>
    rw [sequence, h r, hr]
    simp only [typicalOutcome, next_typical, hn]
    rfl
  case case3 r s hr t hn =>
    rw [sequence, h r, hr]
    simp only [typicalOutcome, next_typical, hn]
    rfl
  case case4 r s hr t hn lt hi =>
    rw [sequence, h r, hr]
    simp only [typicalOutcome, next_typical, hn, typicalNext, Next.typical]
    rw [if_pos (by simpa using lt), hi]
    rfl
  case case5 r s hr t hn ge =>
    rw [sequence, h r, hr]
    simp only [typicalOutcome, next_typical, hn, typicalNext, Next.typical]
    rw [if_neg (by simpa using ge)]

-- By induction on the number of groups that may be opened inside each other.
theorem seesClasses_expression (room : Nat) : SeesClasses (expression room) := by
  induction room
  case zero => exact seesClasses_sequence (seesClasses_block nofun)
  case succ room hi =>
    refine seesClasses_sequence (seesClasses_block ?_)
    rintro _ ⟨⟩
    exact hi

theorem seesClasses_finish : SeesClasses finish := by
  intro r
  rw [finish, finish, rest_typical, List.isEmpty_map, progress_typical]
  split
  case isTrue => rfl
  case isFalse => split <;> rfl

theorem ofText_typical (maxDepth : Nat) (text : List Char) :
    ofText maxDepth (text.map BoolSearch.typical) = typicalOutcome (ofText maxDepth text) := by
  have spaced : SeesClasses fun r => r.skipBlanks.finish := by
    intro r
    dsimp only
    rw [← typical_skipBlanks, seesClasses_finish]
  rw [ofText, ofText, ← typical_start, ← typical_skipBlanks]
  exact (seesClasses_expression maxDepth).bind spaced _

end Reading

@[simp] theorem byteOffset_append_length (before after : List Char) :
    byteOffset (before ++ after) before.length = byteLength before := by
  simp [byteOffset]

open Reading in
theorem exists_position_of_ofText {maxDepth : Nat} {text : List Char} {kind : ViolationKind}
    {s : Reading} (h : ofText maxDepth text = .error ⟨kind, s⟩) :
    ∃ position, position + s.rest.length = text.length ∧
      validate maxDepth text = .error ⟨kind, byteOffset text position⟩ := by
  have whole := textOf_reached maxDepth text
  rw [h] at whole
  change textOf s.lexemes ++ s.rest = text at whole
  have offset : byteLength text - byteLength s.rest =
      byteOffset text (textOf s.lexemes).length := by
    rw [← whole, byteOffset_append_length, byteLength_append]
    omega
  refine ⟨(textOf s.lexemes).length, by rw [← whole, List.length_append], ?_⟩
  rw [validate, h, ← offset]
  rfl

open Reading in
theorem validate_of_typical_eq {text text' : List Char} (maxDepth : Nat)
    (h : text.map typical = text'.map typical) :
    (∃ progress, validate maxDepth text = .ok progress ∧ validate maxDepth text' = .ok progress) ∨
      ∃ kind position, position ≤ text.length ∧
        validate maxDepth text = .error ⟨kind, byteOffset text position⟩ ∧
        validate maxDepth text' = .error ⟨kind, byteOffset text' position⟩ := by
  have same : typicalOutcome (ofText maxDepth text) = typicalOutcome (ofText maxDepth text') := by
    rw [← ofText_typical, h, ofText_typical]
  cases e : ofText maxDepth text
  case ok r =>
    cases e' : ofText maxDepth text'
    case error => rw [e, e'] at same; cases same
    case ok r' =>
      rw [e, e'] at same
      have same : r.typical = r'.typical := Except.ok.inj same
      have progress : r.progress = r'.progress := congrArg (·.progress) same
      exact .inl ⟨r.progress, by rw [validate, e], by rw [validate, e', progress]⟩
  case error rejection =>
    cases e' : ofText maxDepth text'
    case ok => rw [e, e'] at same; cases same
    case error rejection' =>
      rw [e, e'] at same
      have same : rejection.typical = rejection'.typical := Except.error.inj same
      have kinds : rejection.kind = rejection'.kind := congrArg (·.kind) same
      have rests := congrArg (·.reading.rest.length) same
      have lengths := congrArg List.length h
      obtain ⟨position, hp, hv⟩ := exists_position_of_ofText e
      obtain ⟨position', hp', hv'⟩ := exists_position_of_ofText e'
      simp only [Rejection.typical, rest_typical, List.length_map] at rests lengths
      have positions : position' = position := by omega
      rw [← kinds, positions] at hv'
      exact .inr ⟨rejection.kind, position, by omega, hv, hv'⟩

theorem span_eq (before piece after : List Char) :
    (⟨byteLength before, byteLength before + byteLength piece⟩ : Span) =
      ⟨byteOffset (before ++ (piece ++ after)) before.length,
        byteOffset (before ++ (piece ++ after)) (before ++ piece).length⟩ := by
  rw [byteOffset_append_length, ← List.append_assoc, byteOffset_append_length, byteLength_append]

-- Tokens of one kind at the same characters of two texts.
structure Token.Corresponds (text text' : List Char) (token token' : Token) : Prop where
  kind : token.kind = token'.kind
  place : ∃ start stop, start ≤ stop ∧ stop ≤ text.length ∧
    token.span = ⟨byteOffset text start, byteOffset text stop⟩ ∧
    token'.span = ⟨byteOffset text' start, byteOffset text' stop⟩

-- By induction on the parts. In front of them there are as many characters in both texts.
theorem corresponds_layout {parts parts' : List Lexeme} {before before' : List Char}
    (h : parts.map Lexeme.typical = parts'.map Lexeme.typical)
    (hb : before.length = before'.length) :
    List.Forall₂ (Token.Corresponds (before ++ textOf parts) (before' ++ textOf parts'))
      (Token.layout (byteLength before) parts) (Token.layout (byteLength before') parts') := by
  induction parts generalizing parts' before before'
  case nil =>
    cases parts'
    case nil  => exact .nil
    case cons => cases h
  case cons part parts hi =>
    cases parts'
    case nil => cases h
    case cons part' parts' =>
      have ⟨head, tail⟩ := List.cons.inj h
      have lengths : part.text.length = part'.text.length := by
        simpa [Lexeme.typical] using congrArg (·.text.length) head
      have hb' : (before ++ part.text).length = (before' ++ part'.text).length := by
        rw [List.length_append, List.length_append, hb, lengths]
      have later := hi tail hb'
      simp only [List.append_assoc, byteLength_append] at later
      have kinds : part.kind = part'.kind := congrArg (·.kind) head
      refine .cons ⟨kinds, before.length, (before ++ part.text).length, ?_, ?_, ?_, ?_⟩ later
      · simp
      · simp [← Nat.add_assoc]
      · exact span_eq before part.text (textOf parts)
      · rw [hb, hb']
        exact span_eq before' part'.text (textOf parts')

theorem tokenize_of_typical_eq {text text' : List Char}
    (h : text.map typical = text'.map typical) :
    List.Forall₂ (Token.Corresponds text text') (tokenize text) (tokenize text') := by
  have parts : (lexemes none text).map Lexeme.typical =
      (lexemes none text').map Lexeme.typical := by
    rw [← lexemes_typical, h, lexemes_typical]
  have tokens := corresponds_layout parts (rfl : [].length = [].length)
  rwa [List.nil_append, List.nil_append, textOf, textOf, flatMap_text_lexemes,
    flatMap_text_lexemes] at tokens

-- Texts that agree in the classes of their characters are read alike, up to the same violation at
-- the same character if there is one, and are split into the same tokens at the same characters.
theorem only_classes_matter {text text' : List Char} (maxDepth : Nat)
    (h : List.Forall₂ SameClass text text') :
    ((∃ progress, validate maxDepth text = .ok progress ∧
        validate maxDepth text' = .ok progress) ∨
      ∃ kind position, position ≤ text.length ∧
        validate maxDepth text = .error ⟨kind, byteOffset text position⟩ ∧
        validate maxDepth text' = .error ⟨kind, byteOffset text' position⟩) ∧
    List.Forall₂ (Token.Corresponds text text') (tokenize text) (tokenize text') := by
  have same : text.map typical = text'.map typical := by
    induction h
    case nil              => rfl
    case cons hc _ hi => rw [List.map_cons, List.map_cons, typical_eq_of_sameClass hc, hi]
  exact ⟨validate_of_typical_eq maxDepth same, tokenize_of_typical_eq same⟩

-- Letters in another case, another blank and other characters without a meaning.
theorem only_classes_matter_of_key :
    List.Forall₂ SameClass "ti=“ж 1” oR(".toList "TI=“é\t-” Or(".toList ∧
    ((∃ progress, validate 1 "ti=“ж 1” oR(".toList = .ok progress ∧
        validate 1 "TI=“é\t-” Or(".toList = .ok progress) ∨
      ∃ kind position, position ≤ "ti=“ж 1” oR(".toList.length ∧
        validate 1 "ti=“ж 1” oR(".toList =
          .error ⟨kind, byteOffset "ti=“ж 1” oR(".toList position⟩ ∧
        validate 1 "TI=“é\t-” Or(".toList =
          .error ⟨kind, byteOffset "TI=“é\t-” Or(".toList position⟩) ∧
    List.Forall₂ (Token.Corresponds "ti=“ж 1” oR(".toList "TI=“é\t-” Or(".toList)
      (tokenize "ti=“ж 1” oR(".toList) (tokenize "TI=“é\t-” Or(".toList) := by
  have same : List.Forall₂ SameClass "ti=“ж 1” oR(".toList "TI=“é\t-” Or(".toList := by decide
  exact ⟨same, only_classes_matter 1 same⟩

end BoolSearch
