import ModelProvision.Text.Slash

/-!
# Paths and their segments

Stripping takes away slashes at one end of a text, all of them and nothing else
(`withoutLeading_iff`, `withoutTrailing_iff`), and slashes at the ends are what a path does not care
about: its `segments`, the pieces between slashes that are not empty, stay the same without them.

So a directory and a path below it that are joined have

* the segments of the one and then those of the other (`segments_join`);
* one slash between them that stands alone (`doubled_append_slash`);
* nothing left of the slashes that either had where they meet (`join_replicate`), and everything else:
  below one directory two paths are joined alike only if they differ in these (`join_inj_iff`).
-/

namespace ModelProvision.Slash

variable {t rest directory below : Text}

/-! ## Stripping -/

/-- `rest` is the text without the slashes it starts with. -/
def WithoutLeading (t rest : Text) : Prop :=
  (∃ n, t = List.replicate n slash ++ rest) ∧ rest.head? ≠ some slash

/-- `rest` is the text without the slashes it ends with. -/
def WithoutTrailing (t rest : Text) : Prop :=
  (∃ n, t = rest ++ List.replicate n slash) ∧ rest.getLast? ≠ some slash

/-- What is stripped is described by the slashes that go and by where they stop. -/
theorem withoutLeading_iff : WithoutLeading t rest ↔ stripLeading t = rest := by
  constructor
  · rintro ⟨⟨n, rfl⟩, hhead⟩
    unfold stripLeading
    rw [List.dropWhile_append_of_pos]
    · cases rest with
      | nil => rfl
      | cons p rest =>
        have hp : p ≠ slash := by simpa using hhead
        rw [List.dropWhile_cons_of_neg (by simpa using hp)]
    · intro p hp
      simpa using List.eq_of_mem_replicate hp
  · rintro rfl
    constructor
    · refine ⟨(t.takeWhile (· = slash)).length, ?_⟩
      -- what is dropped is a run of slashes, as long as it is
      have hslashes : t.takeWhile (· = slash) =
          List.replicate (t.takeWhile (· = slash)).length slash := by
        rw [List.eq_replicate_iff]
        refine ⟨rfl, fun p hp => ?_⟩
        simpa using List.all_eq_true.mp List.all_takeWhile p hp
      rw [← hslashes]
      exact List.takeWhile_append_dropWhile.symm
    · intro hhead
      have hstop := List.head?_dropWhile_not (· = slash) t
      unfold stripLeading at hhead
      rw [hhead] at hstop
      simp at hstop

/-- Both ends are stripped alike. -/
theorem withoutTrailing_iff_reverse :
    WithoutTrailing t rest ↔ WithoutLeading t.reverse rest.reverse := by
  unfold WithoutTrailing WithoutLeading
  rw [List.head?_reverse]
  refine and_congr_left fun _ => exists_congr fun n => ?_
  rw [← List.reverse_inj, List.reverse_append, List.reverse_replicate]

/-- The same at the other end, by reversing the text. -/
theorem withoutTrailing_iff : WithoutTrailing t rest ↔ stripTrailing t = rest := by
  rw [withoutTrailing_iff_reverse, withoutLeading_iff]
  unfold stripLeading stripTrailing
  rw [List.reverse_eq_iff]

/-- More slashes in front make no difference to what is left … -/
theorem WithoutLeading.replicate_append (h : WithoutLeading t rest) (n : Nat) :
    WithoutLeading (List.replicate n slash ++ t) rest := by
  obtain ⟨⟨m, rfl⟩, hhead⟩ := h
  exact ⟨⟨n + m, by rw [← List.append_assoc, List.replicate_append_replicate]⟩, hhead⟩

/-- … nor do more slashes at the end. -/
theorem WithoutTrailing.append_replicate (h : WithoutTrailing t rest) (n : Nat) :
    WithoutTrailing (t ++ List.replicate n slash) rest := by
  obtain ⟨⟨m, rfl⟩, hlast⟩ := h
  exact ⟨⟨m + n, by rw [List.append_assoc, List.replicate_append_replicate]⟩, hlast⟩

/-! ## Segments -/

/-- The pieces of a path between its slashes, without the empty ones. -/
def segments (t : Text) : List Text := (t.splitOn slash).filter (· ≠ [])

/-- A slash ends a segment and begins another. -/
theorem segments_append_slash (a b : Text) :
    segments (a ++ slash :: b) = segments a ++ segments b := by
  unfold segments List.splitOn
  rw [List.splitOnP_append_cons a b (by simp), List.filter_append]

/-- A slash in front makes no segment. -/
theorem segments_slash_cons (t : Text) : segments (slash :: t) = segments t :=
  segments_append_slash [] t

/-- Stripping loses no segment, since between two slashes there is none. -/
theorem WithoutLeading.segments_eq (h : WithoutLeading t rest) : segments t = segments rest := by
  obtain ⟨⟨n, rfl⟩, -⟩ := h
  induction n with
  | zero => rfl
  | succ n ih => rw [List.replicate_succ, List.cons_append, segments_slash_cons, ih]

theorem WithoutTrailing.segments_eq (h : WithoutTrailing t rest) : segments t = segments rest := by
  obtain ⟨⟨n, rfl⟩, -⟩ := h
  cases n with
  | zero => rw [List.replicate_zero, List.append_nil]
  | succ n =>
    -- behind the first of these slashes there is no segment left
    have hempty : WithoutLeading (List.replicate n slash) [] := ⟨⟨n, by simp⟩, by simp⟩
    rw [List.replicate_succ, segments_append_slash, hempty.segments_eq]
    exact List.append_nil _

/-! ## Joining -/

/-- Joining by what either side is without the slashes where they meet. -/
theorem join_eq {base tail : Text} (hbase : WithoutTrailing directory base)
    (htail : WithoutLeading below tail) : join directory below = base ++ slash :: tail := by
  unfold join
  rw [withoutTrailing_iff.mp hbase, withoutLeading_iff.mp htail]

/-- A joined path leads through the directory and then on along the path. -/
theorem segments_join (directory below : Text) :
    segments (join directory below) = segments directory ++ segments below := by
  have hbase : WithoutTrailing directory (stripTrailing directory) := withoutTrailing_iff.mpr rfl
  have htail : WithoutLeading below (stripLeading below) := withoutLeading_iff.mpr rfl
  rw [join_eq hbase htail, segments_append_slash, ← hbase.segments_eq, ← htail.segments_eq]

/-- How many slashes stand where the two meet makes no difference … -/
theorem join_replicate (directory below : Text) (m n : Nat) :
    join (directory ++ List.replicate m slash) (List.replicate n slash ++ below) =
      join directory below := by
  have hbase : WithoutTrailing directory (stripTrailing directory) := withoutTrailing_iff.mpr rfl
  have htail : WithoutLeading below (stripLeading below) := withoutLeading_iff.mpr rfl
  rw [join_eq (hbase.append_replicate m) (htail.replicate_append n), join_eq hbase htail]

/-- … and below one directory that is all that may differ. -/
theorem join_inj_iff {below' : Text} :
    join directory below = join directory below' ↔
      ∃ tail, WithoutLeading below tail ∧ WithoutLeading below' tail := by
  simp only [withoutLeading_iff, exists_eq_left']
  unfold join
  rw [List.append_right_inj, List.cons_inj_right, eq_comm]

/-- The path has two slashes in a row. -/
def Doubled (t : Text) : Prop := [slash, slash] <:+: t

/-- The slash between two parts has no other one beside it, so two in a row are inside of one
part. -/
theorem doubled_append_slash {base tail : Text} (hbase : base.getLast? ≠ some slash)
    (htail : tail.head? ≠ some slash) (h : Doubled (base ++ slash :: tail)) :
    Doubled base ∨ Doubled tail := by
  obtain ⟨front, back, h⟩ := h
  rw [List.append_assoc, List.append_eq_append_iff] at h
  rcases h with ⟨more, hbase', hcut⟩ | ⟨more, -, hcut⟩
  · -- the two begin in `base`: both are in it, or the second one is the slash behind it
    match more with
    | [] =>
      simp only [List.cons_append, List.nil_append, List.cons.injEq, true_and] at hcut
      exact absurd (by rw [← hcut]; rfl) htail
    | [p] =>
      simp only [List.cons_append, List.cons.injEq] at hcut
      exact absurd (by rw [hbase', ← hcut.1]; simp) hbase
    | p :: q :: more =>
      simp only [List.cons_append, List.cons.injEq] at hcut
      exact .inl ⟨front, more, by rw [hbase', ← hcut.1, ← hcut.2.1]; simp⟩
  · -- they begin behind `base`, with the slash there or later
    match more with
    | [] =>
      simp only [List.cons_append, List.nil_append, List.cons.injEq, true_and] at hcut
      exact absurd (by rw [hcut]; rfl) htail
    | p :: more =>
      simp only [List.cons_append, List.cons.injEq] at hcut
      exact .inr ⟨more, back, by rw [hcut.2]; simp⟩

end ModelProvision.Slash
