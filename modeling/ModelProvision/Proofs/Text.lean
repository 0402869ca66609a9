import ModelProvision.Text.CodePoint

/-!
# The order of texts

`Text.le` is a linear order, since code points are told apart by their numbers. So a list of texts is
sorted in one way only, and sorting forgets in which order the texts came (`Text.mergeSort_congr`).
-/

namespace ModelProvision

/-- No two code points have one number, since no character has that of a surrogate. -/
theorem CodePoint.toNat_inj {p q : CodePoint} : p.toNat = q.toNat ↔ p = q := by
  refine ⟨fun h => ?_, congrArg toNat⟩
  -- no character has the number of a surrogate
  have hscalar : ∀ (c : Char) (n : Fin 0x800), c.toNat ≠ 0xd800 + n.val := by
    intro c n hc
    have hn := n.isLt
    rcases c.valid with hlow | ⟨hhigh, -⟩
    · have : c.toNat < 0xd800 := hlow
      omega
    · have : 0xdfff < c.toNat := hhigh
      omega
  cases p with
  | char c =>
    cases q with
    | char d => exact congrArg char (Char.toNat_inj.mp h)
    | surrogate n => exact absurd h (hscalar c n)
  | surrogate m =>
    cases q with
    | char d => exact absurd h.symm (hscalar d m)
    | surrogate n => exact congrArg surrogate (Fin.ext (Nat.add_left_cancel h))

namespace Text

/-- The first code points decide, unless they are the same. -/
theorem le_cons_cons {p q : CodePoint} {s t : Text} :
    le (p :: s) (q :: t) ↔ p.toNat < q.toNat ∨ p = q ∧ le s t := by
  simp [le]

theorem le_trans {s t u : Text} (h : le s t) (h' : le t u) : le s u := by
  induction s generalizing t u with
  | nil => rfl
  | cons p s ih =>
    cases t with
    | nil => simp [le] at h
    | cons q t =>
      cases u with
      | nil => simp [le] at h'
      | cons r u =>
        rw [le_cons_cons] at h h' ⊢
        rcases h with hlt | ⟨rfl, hle⟩
        · rcases h' with hlt' | ⟨rfl, -⟩
          · exact .inl (Nat.lt_trans hlt hlt')
          · exact .inl hlt
        · rcases h' with hlt' | ⟨rfl, hle'⟩
          · exact .inl hlt'
          · exact .inr ⟨rfl, ih hle hle'⟩

theorem le_total (s t : Text) : le s t ∨ le t s := by
  induction s generalizing t with
  | nil => exact .inl rfl
  | cons p s ih =>
    cases t with
    | nil => exact .inr rfl
    | cons q t =>
      rw [le_cons_cons, le_cons_cons]
      rcases Nat.lt_trichotomy p.toNat q.toNat with hlt | heq | hlt
      · exact .inl (.inl hlt)
      · obtain rfl := CodePoint.toNat_inj.mp heq
        exact (ih t).imp (.inr ⟨rfl, ·⟩) (.inr ⟨rfl, ·⟩)
      · exact .inr (.inl hlt)

/-- Texts that are below each other are one text. -/
theorem le_antisymm {s t : Text} (h : le s t) (h' : le t s) : s = t := by
  induction s generalizing t with
  | nil =>
    cases t with
    | nil => rfl
    | cons q t => simp [le] at h'
  | cons p s ih =>
    cases t with
    | nil => simp [le] at h
    | cons q t =>
      rw [le_cons_cons] at h h'
      rcases h with hlt | ⟨rfl, hle⟩
      · rcases h' with hlt' | ⟨rfl, -⟩ <;> omega
      · rcases h' with hlt' | ⟨-, hle'⟩
        · omega
        · rw [ih hle hle']

/-- **Sorting forgets the order in which the texts came.** -/
theorem mergeSort_congr {texts texts' : List Text} (h : texts.Nodup) (h' : texts'.Nodup)
    (hsame : ∀ t, t ∈ texts ↔ t ∈ texts') : texts.mergeSort le = texts'.mergeSort le := by
  have htrans : ∀ s t u : Text, le s t → le t u → le s u := fun _ _ _ => le_trans
  have htotal : ∀ s t : Text, le s t || le t s := fun s t => by simpa using le_total s t
  have hperm : (texts.mergeSort le).Perm (texts'.mergeSort le) :=
    ((List.mergeSort_perm texts le).trans ((List.perm_ext_iff_of_nodup h h').mpr hsame)).trans
      (List.mergeSort_perm texts' le).symm
  exact hperm.eq_of_pairwise (fun _ _ _ _ => le_antisymm)
    (List.pairwise_mergeSort htrans htotal texts) (List.pairwise_mergeSort htrans htotal texts')

end Text

end ModelProvision
