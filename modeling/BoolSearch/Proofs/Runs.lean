import BoolSearch.Command.Run
import BoolSearch.Proofs.Lines
import Mathlib.Data.List.Forall2

namespace BoolSearch

variable {settings : Settings} {text : List Char} {highlight : Highlight}

namespace Settings

-- How a text comes out when it is checked, and when it is highlighted.
inductive Judges (settings : Settings) (text : List Char) :
    Except Failure Unit → Except Failure Highlight → Prop
  | tooLong :
    settings.Judges text (.error (.tooLong settings.maxInputLength text.length))
      (.error (.tooLong settings.maxInputLength text.length))
  | rejected (violation : Violation) :
    settings.Judges text (.error (.invalid violation))
      (.ok (.rejected ⟨0, byteLength text⟩ violation))
  | accepted : settings.Judges text (.ok ()) (.ok (.accepted (tokenize text)))

theorem judges (settings : Settings) (text : List Char) :
    settings.Judges text (settings.checkText text) (settings.highlight text) := by
  by_cases long : settings.maxInputLength < text.length
  case pos =>
    have fails : settings.checkLength text =
        .error (.tooLong settings.maxInputLength text.length) := if_pos long
    rw [checkText, highlight, fails]
    exact .tooLong
  case neg =>
    have fits : settings.checkLength text = .ok () := if_neg long
    rw [checkText, highlight, fits]
    cases e : validate settings.maxDepth text
    case error violation =>
      simp only [bind, Except.bind]
      exact .rejected violation
    case ok =>
      simp only [bind, Except.bind]
      exact .accepted

def passes (settings : Settings) (text : List Char) : Bool :=
  (settings.checkText text).isOk

theorem passes_iff : settings.passes text ↔ settings.checkText text = .ok () := by
  unfold passes
  cases settings.checkText text <;> simp [Except.isOk, Except.toBool]

theorem passes_congr {settings' : Settings}
    (hl : settings.maxInputLength = settings'.maxInputLength)
    (hd : settings.maxDepth = settings'.maxDepth) :
    settings.passes text = settings'.passes text := by
  simp only [passes, checkText, checkLength, hl, hd]

end Settings

namespace Command

theorem all_isInLine_failureLine {checked : Except Failure Unit}
    {highlighted : Except Failure Highlight} {failure : Failure}
    (h : settings.Judges text checked highlighted)
    (hf : checked = .error failure ∨ highlighted = .error failure) :
    (failureLine failure).all isInLine := by
  cases h
  case tooLong =>
    obtain e | e := hf <;> cases e <;> exact all_isInLine_tooLong _ _
  case rejected violation =>
    obtain e | e := hf <;> cases e
    exact all_isInLine_invalid violation
  case accepted =>
    obtain e | e := hf <;> cases e

section Records

variable {request : Request} {line : List Char}

-- The record of an expression says whether it passes the check, and has a line unless that is all
-- that is asked for.
theorem Request.isValid_isSome_record (request : Request) (settings : Settings)
    (text : List Char) :
    (request.record settings text).isValid = settings.passes text ∧
      (request.record settings text).line.isSome = !(request.check && settings.passes text) := by
  have judged := settings.judges text
  unfold Request.record Record.ofCheck Record.ofHighlight Settings.passes
  revert judged
  generalize settings.checkText text = checked
  generalize settings.highlight text = highlighted
  intro judged
  cases judged <;> cases request.check <;> exact ⟨rfl, rfl⟩

theorem Request.all_isInLine_record (hl : text.all isInLine)
    (h : (request.record settings text).line = some line) : line.all isInLine := by
  have judged := settings.judges text
  unfold Request.record at h
  split at h
  case isTrue =>
    unfold Record.ofCheck at h
    cases e : settings.checkText text
    case ok => simp [e] at h
    case error failure =>
      rw [e] at h
      obtain rfl := Option.some.inj h
      have message := all_isInLine_failureLine judged (.inl e)
      simpa [message, isInLine] using hl
  case isFalse =>
    unfold Record.ofHighlight at h
    cases e : settings.highlight text
    case ok highlight =>
      rw [e] at h
      obtain rfl := Option.some.inj h
      exact all_isInLine_formatLine e hl _ _
    case error failure =>
      rw [e] at h
      obtain rfl := Option.some.inj h
      exact all_isInLine_failureLine judged (.inr e)

end Records

theorem all_isInLine_of_mem_lines {line : List Char} (h : line ∈ lines text) :
    line.all isInLine := by
  induction text generalizing line
  case nil => cases h
  case cons c text hi =>
    unfold lines at h
    split at h
    case isTrue =>
      obtain rfl | h := List.mem_cons.mp h
      case inl => rfl
      case inr => exact hi h
    split at h
    case isTrue => exact hi h
    case isFalse ordinary _ =>
      have here : isInLine c := by simpa [isInLine] using ordinary
      split at h
      case h_1 =>
        obtain rfl := List.mem_singleton.mp h
        simpa using here
      case h_2 first more e =>
        rw [e] at hi
        obtain rfl | h := List.mem_cons.mp h
        case inl => simpa [here] using hi List.mem_cons_self
        case inr => exact hi (List.mem_cons_of_mem _ h)

-- What is left of a list by a partial function, and what it stands for.
theorem forall₂_filterMap {α β : Type} (f : α → Option β) (as : List α) :
    List.Forall₂ (fun a b => f a = some b) (as.filter fun a => (f a).isSome) (as.filterMap f) := by
  induction as
  case nil => exact .nil
  case cons a as hi =>
    cases e : f a
    case none   => simpa [e] using hi
    case some b =>
      rw [List.filter_cons_of_pos (by simp [e]), List.filterMap_cons_some e]
      exact .cons e hi

namespace Request

-- The expressions that have a record: when they are only checked, those that fail.
def shown (request : Request) (settings : Settings) (texts : List (List Char)) :
    List (List Char) :=
  if request.check then texts.filter fun text => !settings.passes text else texts

theorem filter_isSome_record (request : Request) (settings : Settings)
    (texts : List (List Char)) :
    texts.filter (fun text => (request.record settings text).line.isSome) =
      request.shown settings texts := by
  simp only [(request.isValid_isSome_record settings _).2, shown]
  cases request.check <;> simp

def printedLines (request : Request) (settings : Settings) (texts : List (List Char)) :
    List (List Char) :=
  texts.filterMap fun text => (request.record settings text).line

theorem printed_records (request : Request) (settings : Settings) (texts : List (List Char)) :
    printed (texts.map (request.record settings)) =
      (request.printedLines settings texts).flatMap fun line => line ++ ['\n'] := by
  rw [printed, List.filterMap_map]
  rfl

theorem forall₂_printedLines (request : Request) (settings : Settings)
    (texts : List (List Char)) :
    List.Forall₂ (fun text line => (request.record settings text).line = some line)
      (request.shown settings texts) (request.printedLines settings texts) := by
  rw [← filter_isSome_record]
  exact forall₂_filterMap _ texts

-- Requests for the same expressions under the same limits. They may differ in the language, in
-- the format, and in whether the expressions that are valid are shown.
structure Alike (request request' : Request) : Prop where
  expressions : request.expressions = request'.expressions
  config : request.config = request'.config
  maxInputLength : request.maxInputLength = request'.maxInputLength

section Settings

variable {request request' : Request} {file : List Char → Option ByteArray} {settings : Settings}

theorem settings_eq_ok_iff : (request.settings file).1 = .ok settings ↔
    ∃ loaded, request.loaded file = .ok loaded ∧
      request.limited (request.localized loaded).1 = settings ∧ settings.check = .ok () := by
  unfold Request.settings
  cases request.loaded file
  case error stop => simp
  case ok loaded =>
    simp only [Except.ok.injEq, exists_eq_left']
    cases e : (request.limited (request.localized loaded).1).check
    case error failure =>
      simp only [reduceCtorEq, false_iff]
      rintro ⟨rfl, ok⟩
      rw [e] at ok
      cases ok
    case ok =>
      simp only [Except.ok.injEq]
      constructor
      case mp =>
        rintro rfl
        exact ⟨rfl, e⟩
      case mpr => exact And.left

theorem limits_eq (request : Request) (loaded : Settings) :
    (request.limited (request.localized loaded).1).maxInputLength =
        request.maxInputLength.getD loaded.maxInputLength ∧
      (request.limited (request.localized loaded).1).maxDepth = loaded.maxDepth := by
  unfold localized
  split
  case h_1 => exact ⟨rfl, rfl⟩
  case h_2 => split <;> exact ⟨rfl, rfl⟩

theorem Alike.exists_settings (ha : request.Alike request')
    (h : (request.settings file).1 = .ok settings) :
    ∃ settings', (request'.settings file).1 = .ok settings' ∧
      settings.maxInputLength = settings'.maxInputLength ∧
      settings.maxDepth = settings'.maxDepth := by
  have ⟨loaded, hl, hs, hc⟩ := settings_eq_ok_iff.mp h
  have ⟨length, depth⟩ := request.limits_eq loaded
  have ⟨length', depth'⟩ := request'.limits_eq loaded
  rw [hs] at length depth
  rw [← ha.maxInputLength, ← length] at length'
  rw [← depth] at depth'
  refine ⟨_, settings_eq_ok_iff.mpr ⟨loaded, ?loaded, rfl, ?check⟩, length'.symm, depth'.symm⟩
  case loaded => rwa [Request.loaded, ← ha.config]
  case check  => rwa [Settings.check, length', depth']

theorem Alike.texts (ha : request.Alike request') (input : ByteArray) :
    request.texts input = request'.texts input := by
  rw [Request.texts, ha.expressions]
  rfl

theorem texts_toUTF8 (h : request.expressions = []) (input : String) :
    request.texts input.toUTF8 = .ok (lines input.toList) := by
  have decoded : String.fromUTF8? input.toUTF8 = some input := dif_pos input.isValidUTF8
  rw [Request.texts, h, decoded]
  rfl

end Settings

end Request

-- What is given can be carried out: the log can be filtered, and the arguments make a request. That
-- a filter can be made of the variable is the documented behaviour of the log, which passes over
-- directives out of form. It fails only for a directive with a part that starts or ends inside a
-- character (`Unfit.broken`), and then the run ends with code 101 before it looks at anything.
structure Given.Asks (given : Given) (request : Request) : Prop where
  filter : ∃ filter, Filter.ofText? (given.environment.log.getD []) = some filter
  arguments : Request.ofArguments given.arguments given.environment = .ok request

-- The run gets as far as to look at these expressions under these settings.
structure Given.Examines (given : Given) (request : Request) (settings : Settings)
    (texts : List (List Char)) : Prop extends given.Asks request where
  settings : (request.settings given.file).1 = .ok settings
  texts : request.texts given.input = .ok texts

section Runs

variable {given : Given} {request : Request} {settings : Settings} {texts : List (List Char)}

theorem Given.Examines.exists_run_eq (h : given.Examines request settings texts) :
    ∃ log, run given = { request.report settings texts with log } := by
  have ⟨filter, hf⟩ := h.filter
  have ⟨log, settled⟩ : ∃ log, request.settings given.file = (.ok settings, log) :=
    ⟨_, Prod.ext h.settings rfl⟩
  rw [run, hf, h.arguments]
  simp only [Request.run, settled, h.texts, Report.filtered]
  exact ⟨_, rfl⟩

theorem Given.Examines.exitCode_eq (h : given.Examines request settings texts) :
    (run given).exitCode = if texts.all settings.passes then 0 else 1 := by
  have ⟨log, e⟩ := h.exists_run_eq
  rw [e]
  simp only [Request.report, List.all_map, Function.comp_def,
    (request.isValid_isSome_record settings _).1]

theorem Given.Examines.output_eq (h : given.Examines request settings texts) :
    (run given).output = printed (texts.map (request.record settings)) := by
  have ⟨log, e⟩ := h.exists_run_eq
  rw [e]
  rfl

theorem Given.Examines.exitCode_eq_of_alike {other : Given} {request' : Request}
    (h : given.Examines request settings texts) (ho : other.Asks request')
    (ha : request.Alike request') (hf : other.file = given.file)
    (hi : other.input = given.input) : (run other).exitCode = (run given).exitCode := by
  have ⟨settings', hs, length, depth⟩ := ha.exists_settings h.settings
  have examines : other.Examines request' settings' texts :=
    { ho with
      settings := by rwa [hf]
      texts := by rw [hi, ← ha.texts, h.texts] }
  have same : settings.passes = settings'.passes :=
    funext fun _ => Settings.passes_congr length depth
  rw [examines.exitCode_eq, h.exitCode_eq, same]

theorem Given.Examines.all_isInLine_of_mem {text : List Char}
    (h : given.Examines request settings texts) (he : request.expressions = [])
    (hm : text ∈ texts) : text.all isInLine := by
  have read := h.texts
  rw [Request.texts, he, List.isEmpty_nil, if_pos rfl] at read
  split at read
  case h_1 => cases read
  case h_2 input _ =>
    obtain rfl := Except.ok.inj read
    exact all_isInLine_of_mem_lines hm

-- What a run that looks at its expressions leaves behind. The exit code says whether all of them
-- pass the check, and nothing but the limits and the expressions matters for it. What is printed
-- is a record for each expression that is shown, in their order. Expressions that are lines of the
-- input have records of one line.
theorem run_reports (h : given.Examines request settings texts) :
    ((run given).exitCode = 0 ↔ ∀ text ∈ texts, settings.checkText text = .ok ()) ∧
    ((run given).exitCode = 1 ↔ ∃ text ∈ texts, settings.checkText text ≠ .ok ()) ∧
    (∀ other request', Given.Asks other request' → request.Alike request' →
      other.file = given.file → other.input = given.input →
      (run other).exitCode = (run given).exitCode) ∧
    ∃ lines, (run given).output = lines.flatMap (fun line => line ++ ['\n']) ∧
      List.Forall₂ (fun text line => (request.record settings text).line = some line)
        (request.shown settings texts) lines ∧
      (request.expressions = [] → ∀ line ∈ lines, '\n' ∉ line) := by
  have passes : texts.all settings.passes ↔ ∀ text ∈ texts, settings.checkText text = .ok () := by
    simp only [List.all_eq_true, Settings.passes_iff]
  refine ⟨?success, ?failure, ?alike, request.printedLines settings texts, ?output, ?records,
    ?lines⟩
  case success =>
    rw [h.exitCode_eq, ← passes]
    split <;> simp [*]
  case failure =>
    rw [h.exitCode_eq]
    simp only [ne_eq, ← exists_prop, ← not_forall, ← passes]
    split <;> simp [*]
  case alike   => exact fun _ _ ho ha hf hi => h.exitCode_eq_of_alike ho ha hf hi
  case output  => rw [h.output_eq, request.printed_records]
  case records => exact request.forall₂_printedLines settings texts
  case lines   =>
    intro he line hl
    have ⟨text, hm, e⟩ := List.mem_filterMap.mp hl
    exact all_isInLine_iff.mp (Request.all_isInLine_record (h.all_isInLine_of_mem he hm) e)

end Runs

-- Two lines of input to be checked. The second one fails.
def twoLines : Given where
  arguments := ["--check".toList]
  file := fun _ => none
  input := "a AND b\nNOT\n".toUTF8

theorem run_reports_of_twoLines :
    twoLines.Examines { check := true } {} ["a AND b".toList, "NOT".toList] ∧
    (run twoLines).exitCode = 1 ∧
    ∃ line, (run twoLines).output = line ++ ['\n'] ∧ '\n' ∉ line := by
  have examines : twoLines.Examines { check := true } {} ["a AND b".toList, "NOT".toList] := by
    refine ⟨⟨⟨⟨[]⟩, by cbv⟩, by cbv⟩, rfl, ?_⟩
    exact (Request.texts_toUTF8 rfl "a AND b\nNOT\n").trans (by cbv)
  obtain ⟨_, failure, _, lines, printed, each, inLine⟩ := run_reports examines
  have fails : Settings.checkText {} "NOT".toList ≠ .ok () :=
    mt Settings.passes_iff.mpr (by cbv; simp)
  have shown : Request.shown { check := true } {} ["a AND b".toList, "NOT".toList] =
      ["NOT".toList] := by cbv
  rw [shown] at each
  cases each
  case cons line _ _ tail =>
    cases tail
    refine ⟨examines, failure.mpr ⟨_, by simp, fails⟩, line, ?_, ?_⟩
    · simpa using printed
    · exact inLine rfl line (by simp)

end Command

end BoolSearch
