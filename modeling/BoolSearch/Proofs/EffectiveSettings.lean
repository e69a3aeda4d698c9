import BoolSearch.Proofs.Runs
import BoolSearch.Proofs.SettingsTexts

namespace BoolSearch

namespace Settings

variable {settings : Settings} {content : Option ByteArray} {draft : Draft}

-- A file with these settings. Limits of zero are no settings, even where others take their place.
structure Draft.InFile (draft : Draft) (content : Option ByteArray) : Prop where
  given : ∃ bytes text, content = some bytes ∧ String.fromUTF8? bytes = some text ∧
    draft.GivenBy text.toList
  length : draft.maxInputLength ≠ some 0
  depth : draft.maxDepth ≠ some 0

-- A file without settings.
inductive Faulty : Option ByteArray → Prop
  | missing : Faulty none
  | notText {bytes : ByteArray} (h : String.fromUTF8? bytes = none) : Faulty (some bytes)
  | unsettled {bytes : ByteArray} {text : String} (h : String.fromUTF8? bytes = some text)
    (nothing : ∀ draft : Draft, ¬draft.GivenBy text.toList) : Faulty (some bytes)
  | zero {bytes : ByteArray} {text : String} {draft : Draft}
    (h : String.fromUTF8? bytes = some text) (given : draft.GivenBy text.toList)
    (zero : draft.maxInputLength = some 0 ∨ draft.maxDepth = some 0) : Faulty (some bytes)

theorem check_eq_ok_iff :
    settings.check = .ok () ↔ 0 < settings.maxInputLength ∧ 0 < settings.maxDepth := by
  unfold check
  split
  case isTrue zero => simp [zero]
  case isFalse length =>
    split
    case isTrue zero   => simp [zero]
    case isFalse depth => simp [Nat.pos_of_ne_zero length, Nat.pos_of_ne_zero depth]

theorem check_complete_iff : draft.complete.check = .ok () ↔
    draft.maxInputLength ≠ some 0 ∧ draft.maxDepth ≠ some 0 := by
  obtain ⟨length, depth, locale⟩ := draft
  rw [check_eq_ok_iff]
  cases length <;> cases depth <;> simp [Draft.complete, defaultMaxDepth, Nat.pos_iff_ne_zero]

theorem ofFile_eq_ok_iff : ofFile content = .ok settings ↔
    ∃ draft : Draft, draft.InFile content ∧ draft.complete = settings := by
  constructor
  case mp =>
    intro h
    unfold ofFile at h
    split at h
    case h_1 => cases h
    case h_2 bytes =>
      split at h
      case h_1 => cases h
      case h_2 text decoded =>
        cases read : ofText text.toList with
        | error => simp [read, bind, Except.bind] at h
        | ok loaded =>
          cases checked : loaded.check with
          | error => simp [read, checked, bind, Except.bind] at h
          | ok =>
            simp only [read, checked, bind, Except.bind, pure, Except.pure, Except.ok.injEq] at h
            subst h
            obtain ⟨draft, given, rfl⟩ := ofText_eq_ok_iff.mp read
            have ⟨length, depth⟩ := check_complete_iff.mp checked
            exact ⟨draft, ⟨⟨bytes, text, rfl, decoded, given⟩, length, depth⟩, rfl⟩
  case mpr =>
    rintro ⟨draft, ⟨⟨bytes, text, rfl, decoded, given⟩, length, depth⟩, rfl⟩
    have read := ofText_eq_ok_iff.mpr ⟨draft, given, rfl⟩
    have checked := check_complete_iff.mpr ⟨length, depth⟩
    simp [ofFile, decoded, read, checked, bind, Except.bind, pure, Except.pure]

theorem fromUTF8?_toUTF8 (text : String) : String.fromUTF8? text.toUTF8 = some text :=
  dif_pos text.isValidUTF8

theorem Draft.InFile.unique {draft' : Draft} (h : draft.InFile content)
    (h' : draft'.InFile content) : draft = draft' := by
  obtain ⟨⟨bytes, text, rfl, decoded, given⟩, _, _⟩ := h
  obtain ⟨⟨bytes', text', e, decoded', given'⟩, _, _⟩ := h'
  cases e
  obtain rfl := Option.some.inj (decoded.symm.trans decoded')
  exact given.unique given'

theorem faulty_iff : Faulty content ↔ ∀ draft : Draft, ¬draft.InFile content := by
  constructor
  case mp =>
    rintro faulty draft ⟨⟨bytes, text, rfl, decoded, given⟩, length, depth⟩
    cases faulty
    case notText h => simp [decoded] at h
    case unsettled nothing h =>
      obtain rfl := Option.some.inj (decoded.symm.trans h)
      exact nothing draft given
    case zero given' zero h =>
      obtain rfl := Option.some.inj (decoded.symm.trans h)
      obtain rfl := given.unique given'
      exact zero.elim length depth
  case mpr =>
    intro h
    match content with
    | none       => exact .missing
    | some bytes =>
      cases decoded : String.fromUTF8? bytes with
      | none      => exact .notText decoded
      | some text =>
        by_cases said : ∃ draft : Draft, draft.GivenBy text.toList
        case neg => exact .unsettled decoded (not_exists.mp said)
        case pos =>
          obtain ⟨draft, given⟩ := said
          refine .zero decoded given ?_
          by_contra positive
          have ⟨length, depth⟩ := not_or.mp positive
          exact h draft ⟨⟨bytes, text, rfl, decoded, given⟩, length, depth⟩

end Settings

namespace Command

open Settings (Draft Faulty fromUTF8?_toUTF8)

section Choices

variable {given : Given} {request options : Request} {settings : Settings}

-- What an option is set to, or else the variable that stands in for it.
def Given.config (given : Given) (options : Request) : Option (List Char) :=
  options.config.or given.environment.config

def Given.maxInputLength (given : Given) (options : Request) : Option Nat :=
  options.maxInputLength.or (given.environment.maxInputLength.bind size?)

def Given.language (given : Given) (options : Request) : Option (List Char) :=
  options.locale.or given.environment.locale

theorem orBad_eq_ok_iff {asked : Option Request} {next : Request → Except Refusal Request} :
    Request.orBad asked next = .ok request ↔
      ∃ options, asked = some options ∧ next options = .ok request := by
  cases asked <;> simp [Request.orBad]

section StandingIn

variable {setTo : Option (List Char)}

theorem standIn_locale (h : options.standIn .locale setTo = some request) :
    request = { options with locale := options.locale.or setTo } := by
  obtain ⟨expressions, format, check, locale, config, limit⟩ := options
  cases setTo <;> cases locale <;> simpa [Request.standIn, Request.has, Request.put?] using h.symm

theorem standIn_config (h : options.standIn .config setTo = some request) :
    request = { options with config := options.config.or setTo } := by
  obtain ⟨expressions, format, check, locale, config, limit⟩ := options
  cases setTo <;> cases config
  case some.none path =>
    simp only [Request.standIn, Request.has, Option.isSome_none, Bool.false_eq_true, if_false,
      Request.put?] at h
    split at h
    case isTrue  => cases h
    case isFalse => exact (Option.some.inj h).symm
  all_goals exact (Option.some.inj h).symm

theorem standIn_maxInputLength (h : options.standIn .maxInputLength setTo = some request) :
    request = { options with
      maxInputLength := options.maxInputLength.or (setTo.bind size?) } := by
  obtain ⟨expressions, format, check, locale, config, limit⟩ := options
  cases setTo <;> cases limit
  case some.none value =>
    obtain ⟨size, found, rfl⟩ := Option.map_eq_some_iff.mp h
    simp [found]
  all_goals exact (Option.some.inj h).symm

end StandingIn

theorem Given.Asks.exists_options (h : given.Asks request) :
    ∃ options, Request.addArguments {} given.arguments = .ok options ∧
      request = { options with
        locale := given.language options
        config := given.config options
        maxInputLength := given.maxInputLength options } := by
  have made := h.arguments
  unfold Request.ofArguments at made
  cases asked : Request.addArguments {} given.arguments with
  | error => simp [asked, Except.bind] at made
  | ok options =>
    simp only [asked, Except.bind, orBad_eq_ok_iff, Except.ok.injEq, exists_eq_right] at made
    obtain ⟨first, locale, made⟩ := Option.bind_eq_some_iff.mp made
    obtain ⟨second, config, made⟩ := Option.bind_eq_some_iff.mp made
    refine ⟨options, rfl, ?_⟩
    rw [standIn_maxInputLength made, standIn_config config, standIn_locale locale]
    rfl

end Choices

section Loading

variable {request : Request} {file : List Char → Option ByteArray} {settings : Settings}

-- What is known about the settings before the options are looked at: what the file says, if there
-- is to be one.
inductive Configures (file : List Char → Option ByteArray) : Option (List Char) → Draft → Prop
  | default : Configures file none {}
  | file {path : List Char} {draft : Draft} (h : draft.InFile (file path)) :
    Configures file (some path) draft

theorem Configures.positive {path : Option (List Char)} {draft : Draft}
    (h : Configures file path draft) :
    draft.maxInputLength ≠ some 0 ∧ draft.maxDepth ≠ some 0 := by
  cases h
  case default => exact ⟨nofun, nofun⟩
  case file h  => exact ⟨h.length, h.depth⟩

theorem loaded_of_configures {draft : Draft} (h : Configures file request.config draft) :
    request.loaded file = .ok draft.complete := by
  generalize e : request.config = config at h
  unfold Request.loaded
  cases h
  case default => simp only [e]; rfl
  case file h  => simp only [e, Settings.ofFile_eq_ok_iff.mpr ⟨draft, h, rfl⟩]

theorem loaded_of_faulty {path : List Char} (e : request.config = some path)
    (h : Faulty (file path)) : request.loaded file = .error (.unloadable path) := by
  unfold Request.loaded
  cases found : Settings.ofFile (file path) with
  | error => simp only [e, found]
  | ok settings =>
    obtain ⟨draft, inFile, _⟩ := Settings.ofFile_eq_ok_iff.mp found
    exact absurd inFile (Settings.faulty_iff.mp h draft)

theorem exists_configures (h : ∀ path, request.config = some path → ¬Faulty (file path)) :
    ∃ draft, Configures file request.config draft := by
  cases e : request.config with
  | none => exact ⟨{}, .default⟩
  | some path =>
    have ⟨draft, inFile⟩ : ∃ draft : Draft, draft.InFile (file path) := by
      by_contra nothing
      exact h path e (Settings.faulty_iff.mpr (not_exists.mp nothing))
    exact ⟨draft, .file inFile⟩

-- The settings that these choices come to. A language that is not known is no choice.
def chosen (limit : Option Nat) (language : Option (List Char)) (draft : Draft) : Settings :=
  Draft.complete
    { maxInputLength := limit.or draft.maxInputLength
      maxDepth := draft.maxDepth
      locale := (language.bind Locale.ofText?).or draft.locale }

theorem limited_localized (draft : Draft) :
    request.limited (request.localized draft.complete).1 =
      chosen request.maxInputLength request.locale draft := by
  obtain ⟨expressions, format, check, language, config, limit⟩ := request
  cases language with
  | none => cases limit <;> rfl
  | some name =>
    cases found : Locale.ofText? name <;> cases limit <;>
      simp [Request.localized, Request.limited, found, chosen, Draft.complete]

theorem check_chosen_iff {draft : Draft} {path : Option (List Char)}
    (h : Configures file path draft) (limit : Option Nat) (language : Option (List Char)) :
    (chosen limit language draft).check = .ok () ↔ limit ≠ some 0 := by
  rw [chosen, Settings.check_complete_iff]
  cases limit <;> simp [h.positive]

end Loading

-- How a run goes under some settings: it reports on its expressions, unless these are no text.
inductive Request.RunsUnder (request : Request) (settings : Settings) (input : ByteArray)
    (report : Report) : Prop
  | reports {texts : List (List Char)} {log : List LogLine} (read : request.texts input = .ok texts)
    (reports : report = { request.report settings texts with log })
  | unreadable {log : List LogLine} (unread : request.texts input = .error .unreadable)
    (stops : report = { exitCode := 1, stop := some .unreadable, log })

def Report.StopsForSettings (report : Report) : Prop :=
  ∃ stop, report.stop = some stop ∧ stop ≠ .unreadable

section Runs

variable {given : Given} {request : Request} {settings : Settings}

theorem Given.Asks.exists_run_eq (h : given.Asks request) :
    ∃ log, run given = { request.run given.file given.input with log } := by
  have ⟨filter, hf⟩ := h.filter
  rw [run, hf, h.arguments]
  exact ⟨_, rfl⟩

theorem Given.Asks.exists_run_of_error (h : given.Asks request) {stop : Stop}
    (hs : (request.settings given.file).1 = .error stop) :
    ∃ log, run given = { exitCode := 1, stop := some stop, log } := by
  have ⟨log, e⟩ := h.exists_run_eq
  rcases settled : request.settings given.file with ⟨result, settingsLog⟩
  rw [settled] at hs
  subst hs
  rw [e, Request.run, settled]
  exact ⟨log, rfl⟩

theorem Given.Asks.runsUnder (h : given.Asks request)
    (hs : (request.settings given.file).1 = .ok settings) :
    request.RunsUnder settings given.input (run given) := by
  have ⟨log, e⟩ := h.exists_run_eq
  rcases settled : request.settings given.file with ⟨result, settingsLog⟩
  rw [settled] at hs
  subst hs
  rw [e, Request.run, settled]
  cases texts : request.texts given.input with
  | ok texts'  => exact .reports texts rfl
  | error stop =>
    have unread : stop = .unreadable := by
      unfold Request.texts at texts
      split_ifs at texts
      split at texts
      case h_1 => exact (Except.error.inj texts).symm
      case h_2 => cases texts
    subst unread
    exact .unreadable texts rfl

theorem Request.RunsUnder.not_stopsForSettings {report : Report} {input : ByteArray}
    (h : request.RunsUnder settings input report) : ¬report.StopsForSettings := by
  rintro ⟨stop, e, other⟩
  cases h
  case reports reports =>
    rw [reports] at e
    cases e
  case unreadable stops =>
    rw [stops] at e
    exact other (Option.some.inj e).symm

theorem Given.Asks.stops (h : given.Asks request) {stop : Stop}
    (hs : (request.settings given.file).1 = .error stop) (other : stop ≠ .unreadable) :
    (run given).StopsForSettings ∧ (run given).exitCode = 1 ∧ (run given).output = [] := by
  have ⟨log, e⟩ := h.exists_run_of_error hs
  rw [e]
  exact ⟨⟨stop, rfl, other⟩, rfl, rfl⟩

-- The settings of a run whose arguments can be carried out. The run stops for them, and prints
-- nothing, just where the file that is asked for is faulty or the limit that is asked for is zero.
-- Otherwise it goes by the choices that are made, with what the file says and the default values
-- in place of those that are not made.
theorem settings_in_effect (h : given.Asks request) :
    ∃ options, Request.addArguments {} given.arguments = .ok options ∧
      request = { options with
        locale := given.language options
        config := given.config options
        maxInputLength := given.maxInputLength options } ∧
      ((run given).StopsForSettings ↔
        (∃ path, given.config options = some path ∧ Faulty (given.file path)) ∨
          given.maxInputLength options = some 0) ∧
      ((run given).StopsForSettings → (run given).exitCode = 1 ∧ (run given).output = []) ∧
      (¬(run given).StopsForSettings → ∃ draft settings,
        Configures given.file (given.config options) draft ∧
          settings = chosen (given.maxInputLength options) (given.language options) draft ∧
          0 < settings.maxInputLength ∧ 0 < settings.maxDepth ∧
          request.RunsUnder settings given.input (run given)) := by
  obtain ⟨options, added, e⟩ := h.exists_options
  have config : request.config = given.config options := by rw [e]
  have limit : request.maxInputLength = given.maxInputLength options := by rw [e]
  have language : request.locale = given.language options := by rw [e]
  refine ⟨options, added, e, ?_⟩
  rw [← config, ← limit, ← language]
  by_cases faulty : ∃ path, request.config = some path ∧ Faulty (given.file path)
  case pos =>
    obtain ⟨path, asked, faulty⟩ := faulty
    have settled : (request.settings given.file).1 = .error (.unloadable path) := by
      rw [Request.settings, loaded_of_faulty asked faulty]
    have ⟨stops, exit, output⟩ := h.stops settled nofun
    exact ⟨iff_of_true stops (.inl ⟨path, asked, faulty⟩), fun _ => ⟨exit, output⟩, absurd stops⟩
  case neg =>
    have ⟨draft, configures⟩ := exists_configures fun path asked hf => faulty ⟨path, asked, hf⟩
    have loaded := loaded_of_configures configures
    have checked := check_chosen_iff configures request.maxInputLength request.locale
    by_cases zero : request.maxInputLength = some 0
    case pos =>
      have ⟨failure, settled⟩ : ∃ failure,
          (request.settings given.file).1 = .error (.unusable failure) := by
        rw [Request.settings, loaded]
        simp only [limited_localized]
        cases fails : (chosen request.maxInputLength request.locale draft).check with
        | ok            => exact absurd zero (checked.mp fails)
        | error failure => exact ⟨failure, rfl⟩
      have ⟨stops, exit, output⟩ := h.stops settled nofun
      exact ⟨iff_of_true stops (.inr zero), fun _ => ⟨exit, output⟩, absurd stops⟩
    case neg =>
      have positive := checked.mpr zero
      have settled : (request.settings given.file).1 =
          .ok (chosen request.maxInputLength request.locale draft) :=
        Request.settings_eq_ok_iff.mpr ⟨_, loaded, limited_localized draft, positive⟩
      have runs := h.runsUnder settled
      have ⟨length, depth⟩ := Settings.check_eq_ok_iff.mp positive
      refine ⟨iff_of_false runs.not_stopsForSettings (not_or.mpr ⟨faulty, zero⟩),
        fun stops => absurd stops runs.not_stopsForSettings, fun _ => ?_⟩
      exact ⟨draft, _, configures, rfl, length, depth, runs⟩

end Runs

-- Fields that are not in their order, and one that is not known.
def settingsText : String :=
  "\x7b\"locale\": \"ru\", \"theme\": [1], \"max_depth\": 3\x7d"

-- The limit comes from a variable. The language there is not known, so that of the file stays.
def fromFile : Given where
  arguments := ["a".toList]
  environment :=
    { locale := some "fr".toList
      config := some "settings.json".toList
      maxInputLength := some "7".toList }
  file := fun _ => some settingsText.toUTF8
  input := ByteArray.empty

theorem settings_in_effect_of_file : ∃ request, fromFile.Asks request ∧
    ¬(run fromFile).StopsForSettings ∧
    request.RunsUnder ⟨7, 3, .ru⟩ fromFile.input (run fromFile) := by
  have asks : fromFile.Asks
      { expressions := ["a".toList], locale := some "fr".toList,
        config := some "settings.json".toList, maxInputLength := some 7 } :=
    ⟨⟨⟨[]⟩, by cbv⟩, by cbv⟩
  obtain ⟨options, added, e, stops, _, runs⟩ := settings_in_effect asks
  have added' :
      Request.addArguments {} fromFile.arguments = .ok { expressions := ["a".toList] } := by cbv
  obtain rfl := Except.ok.inj (added'.symm.trans added)
  have inFile (path : List Char) :
      Draft.InFile { maxDepth := some 3, locale := some .ru } (fromFile.file path) := by
    have given : Draft.GivenBy { maxDepth := some 3, locale := some .ru } settingsText.toList :=
      Settings.givenBy_iff.mpr (by cbv)
    exact ⟨⟨settingsText.toUTF8, _, rfl, fromUTF8?_toUTF8 _, given⟩, by decide, by decide⟩
  have goesOn : ¬(run fromFile).StopsForSettings := by
    rw [stops]
    rintro (⟨path, _, faulty⟩ | zero)
    case inl => exact Settings.faulty_iff.mp faulty _ (inFile path)
    case inr => cases zero
  obtain ⟨draft, _, configures, rfl, _, _, runs⟩ := runs goesOn
  cases configures
  case file found =>
    obtain rfl := found.unique (inFile _)
    exact ⟨_, asks, goesOn, runs⟩

end Command

end BoolSearch
