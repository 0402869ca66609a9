import ModelProvision.Settings.DotEnv.Binding

/-!
# Progress through an environment file

Every scan takes something off a text that is not empty (`length_scanBinding_lt`), so going through
a file binding by binding comes to an end: a line that is skipped or finished gives up at least its
end (`length_skipLine_lt`, `length_finishLine?_lt`), and no other piece gives anything back.
-/

namespace ModelProvision.DotEnv

open Blank

/-! ### Lines and blanks -/

theorem length_skipLine_lt {t : Text} (h : t ≠ []) : (skipLine t).length < t.length := by
  have hrest := (List.dropWhile_suffix (· ≠ CodePoint.char '\n') (l := t)).length_le
  have hpos := List.length_pos_iff.2 h
  rw [skipLine, List.length_drop]
  omega

theorem length_skipLine_le (t : Text) : (skipLine t).length ≤ t.length := by
  have hrest := (List.dropWhile_suffix (· ≠ CodePoint.char '\n') (l := t)).length_le
  rw [skipLine, List.length_drop]
  omega

theorem length_skipInlineBlanks_le (t : Text) : (skipInlineBlanks t).length ≤ t.length :=
  (List.dropWhile_suffix isInlineBlank).length_le

theorem length_isPrefixOf?_le {word t rest : Text} (h : word.isPrefixOf? t = some rest) :
    rest.length ≤ t.length := by
  induction word generalizing t with
  | nil =>
    have hall : some t = some rest := h
    exact Nat.le_of_eq (congrArg List.length (Option.some.inj hall).symm)
  | cons p word ih =>
    cases t with
    | nil =>
      have hnone : none = some rest := h
      exact absurd hnone (by simp)
    | cons q t =>
      have hstep : (if p == q then word.isPrefixOf? t else none) = some rest := h
      split at hstep
      · exact Nat.le_succ_of_le (ih hstep)
      · exact absurd hstep (by simp)

theorem length_skipExport_le (t : Text) : (skipExport t).length ≤ t.length := by
  rw [skipExport]
  split
  · next p rest h =>
    have hrest := length_skipInlineBlanks_le rest
    have hword := length_isPrefixOf?_le h
    simp only [List.length_cons] at hword
    split
    · omega
    · exact Nat.le_refl _
  · exact Nat.le_refl _

/-! ### Keys and values -/

theorem length_scanKey?_le {t rest : Text} {key? : Option Text}
    (h : scanKey? t = some (key?, rest)) : rest.length ≤ t.length := by
  rw [scanKey?.eq_def] at h
  split at h
  · simp at h
  · next p after =>
    split at h
    · obtain ⟨_, rfl⟩ := Prod.mk.inj (Option.some.inj h)
      exact Nat.le_refl _
    · split at h
      · split at h
        · next q closed hrest =>
          obtain ⟨_, rfl⟩ := Prod.mk.inj (Option.some.inj h)
          have := (List.dropWhile_suffix (· ≠ CodePoint.char '\'') (l := after)).length_le
          simp only [hrest, List.length_cons] at this ⊢
          omega
        · simp at h
      · split at h
        · obtain ⟨_, rfl⟩ := Prod.mk.inj (Option.some.inj h)
          exact (List.dropWhile_suffix isKeyPoint).length_le
        · simp at h

theorem length_cutAtOpenQuote?_le {quote : CodePoint} {escaped : Bool} {t value rest : Text}
    (h : cutAtOpenQuote? quote escaped t = some (value, rest)) : rest.length ≤ t.length := by
  induction t generalizing escaped value with
  | nil => simp [cutAtOpenQuote?] at h
  | cons p t ih =>
    rw [cutAtOpenQuote?] at h
    split at h
    · obtain ⟨_, rfl⟩ := Prod.mk.inj (Option.some.inj h)
      simp
    · obtain ⟨⟨_, _⟩, hcut, heq⟩ := Option.map_eq_some_iff.1 h
      obtain ⟨_, rfl⟩ := Prod.mk.inj heq
      exact Nat.le_succ_of_le (ih hcut)

theorem length_cutAtLastQuote?_le {quote : CodePoint} {t value rest : Text}
    (h : cutAtLastQuote? quote t = some (value, rest)) : rest.length ≤ t.length := by
  induction t generalizing value with
  | nil => simp [cutAtLastQuote?] at h
  | cons p t ih =>
    rw [cutAtLastQuote?] at h
    split at h
    · next hcut =>
      obtain ⟨_, rfl⟩ := Prod.mk.inj (Option.some.inj h)
      exact Nat.le_succ_of_le (ih hcut)
    · split at h
      · obtain ⟨_, rfl⟩ := Prod.mk.inj (Option.some.inj h)
        simp
      · simp at h

theorem length_cutAtQuote?_le {quote : CodePoint} {t value rest : Text}
    (h : cutAtQuote? quote t = some (value, rest)) : rest.length ≤ t.length := by
  rw [cutAtQuote?, Option.orElse_eq_orElse, Option.orElse_eq_or, Option.or_eq_some_iff] at h
  rcases h with hopen | ⟨_, hlast⟩
  · exact length_cutAtOpenQuote?_le hopen
  · exact length_cutAtLastQuote?_le hlast

theorem length_scanValue?_le {t value rest : Text} (h : scanValue? t = some (value, rest)) :
    rest.length ≤ t.length := by
  rw [scanValue?.eq_def] at h
  split at h
  · obtain ⟨⟨_, _⟩, hcut, heq⟩ := Option.map_eq_some_iff.1 h
    obtain ⟨_, rfl⟩ := Prod.mk.inj heq
    exact Nat.le_succ_of_le (length_cutAtQuote?_le hcut)
  · obtain ⟨⟨_, _⟩, hcut, heq⟩ := Option.map_eq_some_iff.1 h
    obtain ⟨_, rfl⟩ := Prod.mk.inj heq
    exact Nat.le_succ_of_le (length_cutAtQuote?_le hcut)
  · obtain ⟨_, rfl⟩ := Prod.mk.inj (Option.some.inj h)
    exact (List.dropWhile_suffix _).length_le

/-! ### Bindings -/

theorem length_finishLine?_lt {t after : Text} (hne : t ≠ []) (h : finishLine? t = some after) :
    after.length < t.length := by
  have hblanks := length_skipInlineBlanks_le t
  rw [finishLine?] at h
  split at h
  · obtain rfl := Option.some.inj h
    exact List.length_pos_iff.2 hne
  · next heq =>
    obtain rfl := Option.some.inj h
    simp only [heq, List.length_cons] at hblanks
    omega
  · next rest heq =>
    obtain rfl := Option.some.inj h
    have := length_skipLine_le rest
    simp only [heq, List.length_cons] at hblanks
    omega
  · simp at h

theorem length_scanAssignment_le {t rest : Text} {value? : Option Text}
    (h : scanAssignment t = .ok (value?, rest)) : rest.length ≤ t.length := by
  have hblanks := length_skipInlineBlanks_le t
  rw [scanAssignment] at h
  split at h
  · next after heq =>
    have hafter := length_skipInlineBlanks_le after
    rw [heq, List.length_cons] at hblanks
    dsimp only at h
    split at h
    · next hvalue =>
      obtain ⟨_, rfl⟩ := Prod.mk.inj (Except.ok.inj h)
      have := length_scanValue?_le hvalue
      omega
    · simp at h
  · obtain ⟨_, rfl⟩ := Prod.mk.inj (Except.ok.inj h)
    exact hblanks

theorem length_scanAssignment_error_le {t rest : Text} (h : scanAssignment t = .error rest) :
    rest.length ≤ t.length := by
  have hblanks := length_skipInlineBlanks_le t
  rw [scanAssignment] at h
  split at h
  · next after heq =>
    have hafter := length_skipInlineBlanks_le after
    rw [heq, List.length_cons] at hblanks
    dsimp only at h
    split at h
    · simp at h
    · obtain rfl := Except.error.inj h
      omega
  · simp at h

theorem length_scanBinding_lt {t : Text} (h : t ≠ []) :
    (scanBinding t).2.length < t.length := by
  have hpos := List.length_pos_iff.2 h
  have hstart := Nat.le_trans (length_skipExport_le (t.dropWhile isBlank))
    (List.dropWhile_suffix isBlank).length_le
  -- what a line leaves is shorter than what it started from, or empty
  have hskip : ∀ u : Text, u.length ≤ t.length → (skipLine u).length < t.length := by
    intro u hu
    by_cases hne : u = []
    · simpa [hne, skipLine] using hpos
    · exact Nat.lt_of_lt_of_le (length_skipLine_lt hne) hu
  rw [scanBinding]
  split
  · exact hskip _ hstart
  · next rest hkey =>
    have hrest := Nat.le_trans (length_scanKey?_le hkey) hstart
    split
    · next herror => exact hskip _ (Nat.le_trans (length_scanAssignment_error_le herror) hrest)
    · next rest' hok =>
      have hrest' := Nat.le_trans (length_scanAssignment_le hok) hrest
      split
      · exact hskip _ hrest'
      · next after hfinish =>
        by_cases hne : rest' = []
        · subst hne
          obtain rfl : [] = after := by simpa [finishLine?, skipInlineBlanks] using hfinish
          exact hpos
        · exact Nat.lt_of_lt_of_le (length_finishLine?_lt hne hfinish) hrest'

end ModelProvision.DotEnv
