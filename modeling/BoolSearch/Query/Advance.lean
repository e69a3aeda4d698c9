import BoolSearch.Query.Validation

namespace BoolSearch.Reading

-- Whatever `read` reads, it takes some text.
def Advances (read : Reading → Outcome) : Prop :=
  ∀ r r', read r = .ok r' → r'.rest.length < r.rest.length

theorem exists_of_bind_eq_ok {outcome : Outcome} {f : Reading → Outcome} {r' : Reading}
    (h : outcome >>= f = .ok r') : ∃ r, outcome = .ok r ∧ f r = .ok r' := by
  cases outcome with
  | error => cases h
  | ok r  => exact ⟨r, rfl, h⟩

theorem length_rest_skipBlanks_le (r : Reading) : r.skipBlanks.rest.length ≤ r.rest.length :=
  length_skipBlanks_le _

theorem advances_value : Advances value := by
  intro r r' h
  unfold value at h
  split at h
  · simp [reject] at h
  next c text e =>
    split at h
    · split at h
      next value rest hq =>
        simp at h
        have all := append_of_quoted? hq
        have : value ≠ [] := by
          intro hv
          rw [e, quoted?] at hq
          split at hq <;> simp [hv] at hq
        have := List.length_pos_iff.mpr this
        rw [← h, ← all]
        simp
        omega
      · simp [reject] at h
    · split at h
      · simp [reject] at h
      next run =>
        simp at h
        have : 0 < (r.rest.takeWhile isBare).length := List.length_pos_iff.mpr ‹_›
        have all := congrArg List.length (@List.takeWhile_append_dropWhile _ isBare r.rest)
        rw [List.length_append] at all
        rw [← h, rest_push]
        omega

theorem length_rest_pushKey_le {r : Reading} {head : KeyHead} (h : key? r.rest = some head) :
    (r.pushKey head).rest.length ≤ r.rest.length := by
  have all := congrArg List.length (append_of_key? h)
  have := length_skipBlanks_le head.rest
  simp [pushKey] at *
  omega

theorem advances_formed : Advances formed := by
  intro r r' h
  unfold formed at h
  split at h
  next head hk =>
    split at h
    · simp [reject] at h
    · have := advances_value _ _ h
      have := length_rest_pushKey_le (r := r.setForm .keyed) hk
      rw [rest_setForm] at this
      omega
  · split at h
    · simp [reject] at h
    · simpa using advances_value _ _ h

theorem advances_leaf : Advances leaf := by
  intro r r' h
  unfold leaf at h
  cases e : r.formed with
  | error => simp [e, Except.map] at h
  | ok s =>
    simp [e, Except.map] at h
    rw [← h]
    simpa using advances_formed _ _ e

theorem eq_of_refuseConnective {r r' : Reading} (h : r.refuseConnective = .ok r') : r' = r := by
  unfold refuseConnective at h
  split at h <;> simp [reject] at h
  exact h.symm

theorem length_rest_pushConnective_le (r : Reading) (connective : Connective) :
    (r.pushConnective connective).rest.length ≤ r.rest.length := by
  simp [pushConnective]

theorem length_rest_pushNot_le (r : Reading) : r.pushNot.rest.length ≤ r.rest.length :=
  Nat.le_trans (length_rest_skipBlanks_le _) (length_rest_pushConnective_le _ _)

theorem length_rest_pushJoining_le (r : Reading) (connective : Connective) :
    (r.pushJoining connective).rest.length ≤ r.rest.length :=
  Nat.le_trans (length_rest_skipBlanks_le _) (length_rest_pushConnective_le _ _)

theorem length_rest_le_of_negation {r r' : Reading} (h : r.negation = .ok r') :
    r'.rest.length ≤ r.rest.length := by
  unfold negation at h
  split at h
  · split at h
    · simp [reject] at h
    · rw [eq_of_refuseConnective h]
      exact length_rest_pushNot_le r
  · simp at h
    simp [h]

theorem advances_groupEnd : Advances groupEnd := by
  intro r r' h
  unfold groupEnd at h
  split at h
  next rest e =>
    simp at h
    have := length_rest_skipBlanks_le r
    rw [e] at this
    simp [← h, closeGroup, push] at *
    omega
  · simp [reject] at h

theorem advances_operand {inside : Option (Reading → Outcome)}
    (hi : ∀ read ∈ inside, Advances read) : Advances (operand inside) := by
  intro r r' h
  unfold operand at h
  split at h
  next rest e =>
    unfold group at h
    split at h
    · simp [reject] at h
    next read =>
      obtain ⟨s, hs, h⟩ := exists_of_bind_eq_ok h
      have := hi read rfl _ _ hs
      have := advances_groupEnd _ _ h
      have := length_skipBlanks_le rest
      simp [openGroup, e] at *
      omega
  · exact advances_leaf _ _ h

theorem advances_block {inside : Option (Reading → Outcome)}
    (hi : ∀ read ∈ inside, Advances read) : Advances (block inside) := by
  intro r r' h
  unfold block at h
  split at h
  · simp [reject] at h
  · obtain ⟨s, h, ho⟩ := exists_of_bind_eq_ok h
    obtain ⟨t, h, hn⟩ := exists_of_bind_eq_ok h
    have := eq_of_refuseConnective h
    subst this
    have := advances_operand hi _ _ ho
    have := length_rest_le_of_negation hn
    have := length_rest_skipBlanks_le r
    omega

def Next.reading : Next → Reading
  | .done r => r
  | .more r => r

theorem length_rest_le_of_join {r : Reading} {connective : Connective} {next : Next}
    (h : r.join connective = .ok next) : next.reading.rest.length ≤ r.rest.length := by
  unfold join at h
  split at h
  · simp [reject] at h
  · simp [reject] at h
  · simp at h
    rw [← h]
    exact length_rest_pushJoining_le r connective

theorem length_rest_le_of_proceed {r : Reading} {next : Next} (h : r.proceed = .ok next) :
    next.reading.rest.length ≤ r.rest.length := by
  unfold proceed at h
  split at h
  · simp at h
    simp [← h, Next.reading]
  · split at h
    · simp [reject] at h
    · split at h
      · exact length_rest_le_of_join h
      · simp at h
        rw [← h]
        split <;> simp [Next.reading]

theorem length_rest_le_of_next {r : Reading} {next : Next} (h : r.next = .ok next) :
    next.reading.rest.length ≤ r.rest.length :=
  Nat.le_trans (length_rest_le_of_proceed h) (length_rest_skipBlanks_le r)

-- If every block takes some text, then so does the whole, and going on needs no guard.
theorem sequence_eq_of_advances {read : Reading → Outcome} (hr : Advances read) (r : Reading) :
    sequence read r =
      match read r with
      | .error rejection => .error rejection
      | .ok r' =>
        match r'.next with
        | .error rejection => .error rejection
        | .ok (.done r'')  => .ok r''
        | .ok (.more r'')  => sequence read r'' := by
  rw [sequence]
  cases hs : read r with
  | error => rfl
  | ok s =>
    dsimp only
    cases ht : s.next with
    | error => rfl
    | ok next =>
      cases next with
      | done => rfl
      | more t => exact if_pos (Nat.lt_of_le_of_lt (length_rest_le_of_next ht) (hr _ _ hs))

theorem advances_sequence {read : Reading → Outcome} (hr : Advances read) :
    Advances (sequence read) := by
  intro r r' h
  fun_induction sequence read r with
  | case1 => cases h
  | case2 => cases h
  | case3 r s hs t ht =>
    have := hr _ _ hs
    have := length_rest_le_of_next ht
    simp [Next.reading] at *
    subst h
    omega
  | case4 r s hs t ht hlt ih =>
    have := ih h
    omega
  | case5 r s hs t ht hlt =>
    have := hr _ _ hs
    have := length_rest_le_of_next ht
    simp [Next.reading] at *
    omega

theorem advances_expression (room : Nat) : Advances (expression room) := by
  induction room with
  | zero =>
    intro r r' h
    rw [expression] at h
    exact advances_sequence (advances_block (by simp)) r r' h
  | succ room ih =>
    intro r r' h
    rw [expression] at h
    exact advances_sequence (advances_block (by simpa using ih)) r r' h

end BoolSearch.Reading
