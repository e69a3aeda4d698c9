import BoolSearch.Proofs.Walk

namespace BoolSearch

open Grammar Reading

structure Flags.Keeps (earlier later : Flags) : Prop where
  plain : earlier.sawPlain → later.sawPlain
  keyed : earlier.sawKeyed → later.sawKeyed

theorem Flags.Keeps.refl (flags : Flags) : flags.Keeps flags :=
  ⟨id, id⟩

theorem Flags.Keeps.trans {a b c : Flags} (h : a.Keeps b) (h' : b.Keeps c) : a.Keeps c :=
  ⟨h'.plain ∘ h.plain, h'.keyed ∘ h.keyed⟩

-- The parse state at a call or a return on the way through the text.
structure Moment.Sound (limit : Nat) (text : List Char) (m : Moment) : Prop where
  ahead : textOf m.parts <+: text
  oneForm : ¬(m.flags.sawPlain ∧ m.flags.sawKeyed)
  oneLatest : ¬(m.flags.lastConnective ∧ m.flags.lastBlock)
  -- The depth counts the groups that have been entered and not left.
  balanced : opened m.parts = closed m.parts + m.flags.depth
  bounded : m.flags.depth ≤ limit
  passed : ∀ entry, m.event = .passed entry →
    m.flags.depth = entry.depth ∧ m.flags.lastBlock ∧ ¬m.flags.lastConnective

variable {limit : Nat} {text : List Char} {r s : Reading} {record : List Moment}

-- A reading with the moments that a walk has recorded on the way to it.
structure Chronicled (limit : Nat) (text : List Char) (p : Reading × List Moment) : Prop where
  whole : textOf p.1.lexemes ++ p.1.rest = text
  nested : Nested limit p.1
  sound : ∀ m ∈ p.2, m.Sound limit text
  kept : ∀ m ∈ p.2, m.flags.Keeps p.1.progress.flags
  lasting : p.2.Pairwise fun later earlier => earlier.flags.Keeps later.flags

theorem chronicled_start (limit : Nat) (text : List Char) :
    Chronicled limit text (start text, []) where
  whole := rfl
  nested := nested_start text
  sound := nofun
  kept := nofun
  lasting := .nil

theorem Reading.Step.keeps (h : Step limit r s) : r.progress.flags.Keeps s.progress.flags := by
  constructor
  case plain =>
    intro hp
    exact decide_eq_true (h.form_eq (of_decide_eq_true hp))
  case keyed =>
    intro hk
    exact decide_eq_true (h.form_eq (of_decide_eq_true hk))

-- The forms exclude each other, and so do the latest parts.
theorem Chronicled.sound_note (h : Chronicled limit text (r, record)) (routine : Routine)
    {event : Event} (settled : ∀ entry, event = .passed entry →
      r.progress.depth = entry.depth ∧ r.progress.latest = .block) :
    Moment.Sound limit text ⟨routine, event, r.lexemes, r.progress.flags⟩ where
  ahead := ⟨r.rest, h.whole⟩
  oneForm hf := by
    have plain : r.progress.form = some .plain := of_decide_eq_true hf.1
    have keyed : r.progress.form = some .keyed := of_decide_eq_true hf.2
    rw [plain] at keyed
    cases keyed
  oneLatest hl := by
    have connective : r.progress.latest = .connective := of_decide_eq_true hl.1
    have block : r.progress.latest = .block := of_decide_eq_true hl.2
    rw [connective] at block
    cases block
  balanced := h.nested.balanced
  bounded := h.nested.depth_le
  passed entry he := by
    have ⟨hd, hl⟩ := settled entry he
    exact ⟨hd, by simp [Progress.flags, hl], by simp [Progress.flags, hl]⟩

theorem Reading.Tick.chronicled {p q : Reading × List Moment} (h : Tick limit p q)
    (hc : Chronicled limit text p) : Chronicled limit text q := by
  cases h
  case step r s record step =>
    have ⟨parts, hl, ht⟩ := step.forward
    exact {
      whole := by rw [hl, textOf_append, List.append_assoc, ht, hc.whole]
      nested := step.nested hc.nested
      sound := hc.sound
      kept := fun m hm => (hc.kept m hm).trans step.keeps
      lasting := hc.lasting }
  case note r record routine event settled =>
    exact {
      whole := hc.whole
      nested := hc.nested
      sound := List.forall_mem_cons.mpr ⟨hc.sound_note routine settled, hc.sound⟩
      kept := List.forall_mem_cons.mpr ⟨.refl _, hc.kept⟩
      lasting := hc.lasting.cons hc.kept }

theorem Reading.Ticks.chronicled {p q : Reading × List Moment} (h : Ticks limit p q)
    (hc : Chronicled limit text p) : Chronicled limit text q := by
  induction h
  case refl         => exact hc
  case tail tick hi => exact tick.chronicled hi

theorem chronicled_ofText (limit : Nat) (text : List Char) :
    Returned (Walk.ofText limit text).last.record ∧
      ∃ r, Chronicled limit text (r, (Walk.ofText limit text).last.record) := by
  have follows := follows_ofText limit text
  generalize ofText limit text = outcome at follows
  generalize Walk.ofText limit text = passage at follows ⊢
  cases follows
  case ok new ticks returned =>
    rw [List.append_nil] at ticks ⊢
    exact ⟨returned, _, Ticks.chronicled ticks (chronicled_start limit text)⟩
  case error new ticks returned =>
    rw [List.append_nil] at ticks ⊢
    exact ⟨returned, _, Ticks.chronicled ticks (chronicled_start limit text)⟩

theorem Walk.last_finish (w : Walk) : w.finish.last = w := by
  rw [finish]
  split
  case isTrue => rfl
  case isFalse =>
    split
    case isTrue  => rfl
    case isFalse => rfl

theorem Walk.recorded_ne_nil (routine : Routine) (run : Walk → Passage) (w : Walk) :
    (recorded routine run w).last.record ≠ [] := by
  rw [recorded]
  split
  case h_1 => exact List.cons_ne_nil _ _
  case h_2 => exact List.cons_ne_nil _ _

theorem Walk.ofText_ne_nil (limit : Nat) (text : List Char) :
    (ofText limit text).last.record ≠ [] := by
  have hr : (expression limit limit (start text).skipBlanks).last.record ≠ [] := by
    cases limit <;> exact recorded_ne_nil _ _ _
  rw [ofText]
  generalize expression limit limit (start text).skipBlanks = passage at hr
  cases passage
  case error => exact hr
  case ok w =>
    show w.skipBlanks.finish.last.record ≠ []
    rw [last_finish]
    exact hr

theorem flags_of_validate {progress : Progress} (h : validate limit text = .ok progress) :
    ∃ form, progress.flags = { ({} : Flags) with
      sawPlain := form = Form.plain, sawKeyed := form = Form.keyed, lastBlock := true } := by
  obtain ⟨r, hr⟩ := isOk_validate_iff.mp ⟨progress, h⟩
  rw [validate, hr] at h
  cases h
  obtain ⟨form, parts, _, _, e⟩ := ofText_eq_ok_iff.mp hr
  refine ⟨form, ?_⟩
  rw [e]
  cases form <;> rfl

theorem kind_of_validate {violation : Violation} (h : validate limit text = .error violation) :
    violation.kind ∉ [.keyExpected, .equalsExpected, .unbalancedParens] := by
  have reaches := reaches_ofText limit text
  rw [validate] at h
  generalize ofText limit text = outcome at h reaches
  cases reaches
  case ok             => cases h
  case error reported => cases h; exact reported.possible

-- A walk that keeps every flag by itself reports what validation reports. It records the calls of
-- routines that all return, and its state is sound at each of them.
theorem parse_state_sound (maxDepth : Nat) (text : List Char) :
    (Walk.ofText maxDepth text).report text = (validate maxDepth text).map Progress.flags ∧
    (Walk.ofText maxDepth text).last.record ≠ [] ∧
    Returned (Walk.ofText maxDepth text).last.record ∧
    (∀ m ∈ (Walk.ofText maxDepth text).last.record, m.Sound maxDepth text) ∧
    (Walk.ofText maxDepth text).last.record.Pairwise
      (fun later earlier => earlier.flags.Keeps later.flags) ∧
    (∀ flags, (Walk.ofText maxDepth text).report text = .ok flags → flags.depth = 0 ∧
      flags.lastBlock ∧ ¬flags.lastConnective ∧ flags.sawPlain ≠ flags.sawKeyed) ∧
    ∀ violation, (Walk.ofText maxDepth text).report text = .error violation →
      violation.kind ∉ [.keyExpected, .equalsExpected, .unbalancedParens] := by
  have ⟨returned, r, hc⟩ := chronicled_ofText maxDepth text
  refine ⟨report_ofText maxDepth text, Walk.ofText_ne_nil maxDepth text, returned, hc.sound,
    hc.lasting, ?_, ?_⟩
  · intro flags hr
    rw [report_ofText] at hr
    cases hv : validate maxDepth text with
    | error violation => rw [hv] at hr; cases hr
    | ok progress =>
      rw [hv] at hr
      cases hr
      have ⟨form, e⟩ := flags_of_validate hv
      rw [e]
      cases form <;> decide
  · intro violation hr
    rw [report_ofText] at hr
    cases hv : validate maxDepth text with
    | ok progress => rw [hv] at hr; cases hr
    | error violation =>
      rw [hv] at hr
      cases hr
      exact kind_of_validate hv

end BoolSearch
