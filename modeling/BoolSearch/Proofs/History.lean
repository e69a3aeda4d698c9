import BoolSearch.Proofs.DepthLimit
import BoolSearch.Proofs.Overlap

namespace BoolSearch

open Grammar

namespace Grammar

def Stage.after (stage : Stage) (parts : List Lexeme) : Stage :=
  parts.foldl (fun stage part => stage.next part.kind) stage

-- The form of the leaf block that ends in a part of this kind, if one does.
def Stage.leafForm? (stage : Stage) : TokenKind → Option Form
  | .quoted | .bare => some (if stage = .valued then .keyed else .plain)
  | _               => none

def Stage.leafForms (stage : Stage) : List Lexeme → List Form
  | []            => []
  | part :: parts =>
    (stage.leafForm? part.kind).toList ++ (stage.next part.kind).leafForms parts

end Grammar

def lastBut (kinds : List TokenKind) (parts : List Lexeme) : Option TokenKind :=
  (parts.map Lexeme.kind).reverse.find? (· ∉ kinds)

def EndsJoining (kinds : List TokenKind) (parts : List Lexeme) : Prop :=
  ∃ kind ∈ lastBut kinds parts, kind.IsJoining

section Parts

variable {form : Form} {stage : Stage} {kinds : List TokenKind} {part : Lexeme}
  {parts others : List Lexeme} {gap rest : List Char}

namespace Grammar.Stage

@[simp] theorem after_nil : stage.after [] = stage := rfl

@[simp] theorem after_cons :
    stage.after (part :: parts) = (stage.next part.kind).after parts := rfl

@[simp] theorem after_append : stage.after (parts ++ others) = (stage.after parts).after others :=
  List.foldl_append

@[simp] theorem after_blanks : stage.after (Scan.blanks gap) = stage := by
  induction gap
  case nil         => rfl
  case cons c _ hi => exact hi

@[simp] theorem leafForms_nil : stage.leafForms [] = [] := rfl

@[simp] theorem leafForms_append :
    stage.leafForms (parts ++ others) =
      stage.leafForms parts ++ (stage.after parts).leafForms others := by
  induction parts generalizing stage
  case nil     => rfl
  case cons hi => simp [leafForms, hi]

@[simp] theorem leafForms_blanks : stage.leafForms (Scan.blanks gap) = [] := by
  induction gap
  case nil         => rfl
  case cons c _ hi => exact hi

theorem leafForms_singleton : stage.leafForms [part] = (stage.leafForm? part.kind).toList := by
  simp [leafForms]

end Grammar.Stage

@[simp] theorem lastBut_nil : lastBut kinds [] = none := rfl

theorem lastBut_concat : lastBut kinds (parts ++ [part]) =
    if part.kind ∈ kinds then lastBut kinds parts else some part.kind := by
  simp only [lastBut, List.map_append, List.map_singleton, List.reverse_concat, List.find?_cons]
  by_cases h : part.kind ∈ kinds <;> simp [h]

theorem lastBut_blanks (h : .blank ∈ kinds) :
    lastBut kinds (parts ++ Scan.blanks gap) = lastBut kinds parts := by
  induction gap generalizing parts
  case nil => simp [Scan.blanks]
  case cons c gap hi =>
    have e : parts ++ Scan.blanks (c :: gap) = parts ++ [⟨.blank, [c]⟩] ++ Scan.blanks gap := by
      simp [Scan.blanks]
    rw [e, hi, lastBut_concat, if_pos h]

theorem endsJoining_blanks (h : .blank ∈ kinds) :
    EndsJoining kinds (parts ++ Scan.blanks gap) ↔ EndsJoining kinds parts := by
  rw [EndsJoining, lastBut_blanks h, EndsJoining]

theorem endsJoining_concat : EndsJoining kinds (parts ++ [part]) ↔
    if part.kind ∈ kinds then EndsJoining kinds parts else part.kind.IsJoining := by
  rw [EndsJoining, lastBut_concat]
  by_cases h : part.kind ∈ kinds <;> simp [h, EndsJoining]

-- Only an opening parenthesis can stand between.
theorem lastBut_opening (h : lastBut [.blank] parts ≠ some (.paren .opening)) :
    lastBut [.blank, .paren .opening] parts = lastBut [.blank] parts := by
  induction parts using List.reverseRecOn
  case nil => rfl
  case append_singleton parts part hi =>
    rw [lastBut_concat] at h ⊢
    rw [lastBut_concat]
    by_cases hb : part.kind ∈ [TokenKind.blank]
    case pos =>
      rw [if_pos hb] at h ⊢
      rw [if_pos (by simp [List.mem_singleton.mp hb]), hi h]
    case neg =>
      rw [if_neg hb] at h ⊢
      rw [if_neg fun hm => ?_]
      cases List.mem_cons.mp hm
      case inl e => exact hb (by simp [e])
      case inr e => exact h (by simp [List.mem_singleton.mp e])

-- The values of a leaf block come last in it.
theorem Grammar.IsLeaf.exists_concat (h : IsLeaf form parts rest) :
    ∃ front value, front ++ [value] = parts ∧ IsValue value rest := by
  cases h
  case keyed hv   => exact ⟨_, _, rfl, hv⟩
  case plain hv _ => exact ⟨[], _, rfl, hv⟩

theorem Grammar.IsLeaf.after (h : IsLeaf form parts rest) : stage.after parts = .closed := by
  obtain ⟨front, value, rfl, hv⟩ := h.exists_concat
  rw [Stage.after_append]
  exact Stage.next_of_isValue hv

theorem Grammar.Stage.leafForm?_of_isValue {value : Lexeme} (hv : IsValue value rest) :
    stage.leafForm? value.kind = some (if stage = .valued then .keyed else .plain) := by
  cases hv <;> rfl

theorem Grammar.IsLeaf.leafForms (h : IsLeaf form parts rest) (hs : stage ≠ .valued) :
    stage.leafForms parts = [form] := by
  cases h
  case keyed name gap gap' value hn hg hg' hv =>
    have forms : Stage.leafForms .valued [value] = [.keyed] := by
      rw [Stage.leafForms_singleton, Stage.leafForm?_of_isValue hv]
      rfl
    have key : stage.leafForms [⟨.key, name⟩] = [] := rfl
    have equals : Stage.leafForms .named [⟨.equals, ['=']⟩] = [] := rfl
    have e : ⟨.key, name⟩ :: Scan.blanks gap ++ ⟨.equals, ['=']⟩ :: Scan.blanks gap' ++ [value] =
        [⟨.key, name⟩] ++ (Scan.blanks gap ++ ([⟨.equals, ['=']⟩] ++
          (Scan.blanks gap' ++ [value]))) := by simp
    rw [e]
    simp only [Stage.leafForms_append, Stage.leafForms_blanks, Stage.after_blanks, key,
      List.nil_append]
    change Stage.leafForms .named [_] ++ Stage.leafForms .valued [value] = _
    rw [equals, forms]
    rfl
  case plain value hv _ =>
    rw [Stage.leafForms_singleton, Stage.leafForm?_of_isValue hv, if_neg hs]
    rfl

theorem Grammar.IsValue.not_isJoining {value : Lexeme} (hv : IsValue value rest) :
    ¬value.kind.IsJoining := by
  cases hv <;> simp [TokenKind.IsJoining]

theorem Grammar.IsLeaf.not_endsJoining (h : IsLeaf form others rest) :
    ¬EndsJoining [.blank, .paren .opening] (parts ++ others) := by
  obtain ⟨front, value, rfl, hv⟩ := h.exists_concat
  rw [← List.append_assoc, endsJoining_concat, if_neg]
  · exact hv.not_isJoining
  · cases hv <;> simp

end Parts

namespace Reading

variable {r s : Reading} {form : Form} {parts : List Lexeme} {gap rest : List Char}

def stage (r : Reading) : Stage :=
  Stage.operand.after r.lexemes

-- What a reading remembers of its parts: the form of the leaf blocks, if there are any, and
-- whether an `AND` or `OR` was the last part, apart from opening parentheses.
structure Remembers (r : Reading) : Prop where
  form : ∀ form, r.progress.form = some form ↔ form ∈ Stage.operand.leafForms r.lexemes
  latest : r.progress.latest = .connective ↔ EndsJoining [.blank, .paren .opening] r.lexemes

theorem remembers_start (text : List Char) : Remembers (start text) := by
  constructor
  · simp [start, lexemes]
  · simp [start, lexemes, EndsJoining]

theorem Remembers.form_eq (h : Remembers r) (hf : r.progress.form = some form) :
    Stage.operand.leafForms r.lexemes ≠ [] ∧ ∀ f ∈ Stage.operand.leafForms r.lexemes, f = form := by
  constructor
  · exact List.ne_nil_of_mem ((h.form form).mp hf)
  · intro f hm
    exact Option.some.inj (((h.form f).mpr hm).symm.trans hf)

@[simp] theorem lexemes_past : (r.past form parts rest).lexemes = r.lexemes ++ parts := by
  simp [past, lexemes]

@[simp] theorem stage_setLatest {latest : Latest} : (r.setLatest latest).stage = r.stage := rfl

@[simp] theorem stage_along : (r.along parts rest).stage = r.stage.after parts := by
  simp [stage]

@[simp] theorem stage_setForm : (r.setForm form).stage = r.stage := rfl

@[simp] theorem stage_skipBlanks : r.skipBlanks.stage = r.stage := by
  rw [skipBlanks, pushBlanks_eq_along, stage_along, Stage.after_blanks]

theorem Remembers.blanks (h : Remembers r) : Remembers (r.along (Scan.blanks gap) rest) := by
  constructor
  · intro form
    simp only [lexemes_along, Stage.leafForms_append, Stage.leafForms_blanks, List.append_nil]
    exact h.form form
  · rw [lexemes_along, endsJoining_blanks (by simp)]
    exact h.latest

theorem Remembers.skipBlanks (h : Remembers r) : Remembers r.skipBlanks :=
  h.blanks

-- An opening parenthesis does not hide the connective in front of it.
theorem Remembers.openGroup (h : Remembers r) : Remembers (r.openGroup rest) := by
  constructor
  · intro form
    rw [lexemes_openGroup, Stage.leafForms_append, Stage.leafForms_singleton]
    simpa [Stage.leafForm?, Reading.openGroup, push] using h.form form
  · rw [lexemes_openGroup, endsJoining_concat, if_pos (by simp)]
    exact h.latest

theorem stage_openGroup : (r.openGroup rest).stage = .operand := by
  simp [stage, Stage.next]

theorem Remembers.closeGroup (h : Remembers r) : Remembers (r.closeGroup rest) := by
  constructor
  · intro form
    rw [lexemes_closeGroup, Stage.leafForms_append, Stage.leafForms_singleton]
    simpa [Stage.leafForm?, Reading.closeGroup, push] using h.form form
  · rw [lexemes_closeGroup, endsJoining_concat]
    simp [Reading.closeGroup, TokenKind.IsJoining]

theorem stage_closeGroup : (r.closeGroup rest).stage = .closed := by
  simp [stage, Stage.next]

-- Behind a connective and its blanks, only its kind matters.
theorem Remembers.connective {connective : Connective} (word gap : List Char) (h : Remembers r)
    (e : s.lexemes = r.lexemes ++ ⟨.connective connective, word⟩ :: Scan.blanks gap)
    (hf : s.progress.form = r.progress.form)
    (hl : s.progress.latest = .connective ↔ connective ≠ .not) : Remembers s := by
  have e : s.lexemes = r.lexemes ++ [⟨.connective connective, word⟩] ++ Scan.blanks gap := by
    simp [e]
  constructor
  · intro form
    rw [e, hf, List.append_assoc, Stage.leafForms_append, Stage.leafForms_append,
      Stage.leafForms_singleton]
    simpa [Stage.leafForm?] using h.form form
  · rw [e, endsJoining_blanks (by simp), endsJoining_concat, if_neg (by simp), hl]
    cases connective <;> simp [TokenKind.IsJoining]

theorem Remembers.past (h : Remembers r) (hs : r.stage ≠ .valued) (ha : r.Admits form)
    (hl : IsLeaf form parts rest) : Remembers (r.past form parts rest) := by
  constructor
  · intro f
    rw [lexemes_past, Stage.leafForms_append, ← stage, hl.leafForms hs, List.mem_append,
      List.mem_singleton, ← h.form]
    constructor
    case mp =>
      intro hf
      exact .inr (Option.some.inj hf).symm
    case mpr =>
      rintro (hf | rfl)
      · rw [ha f hf]
        rfl
      · rfl
  · rw [lexemes_past]
    exact iff_of_false (by simp [Reading.past]) hl.not_endsJoining

theorem stage_past (hl : IsLeaf form parts rest) : (r.past form parts rest).stage = .closed := by
  rw [stage, lexemes_past, Stage.after_append]
  exact hl.after

end Reading

end BoolSearch
