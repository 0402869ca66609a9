import ModelProvision.Text.CodePoint

/-!
# Texts cut at slashes

Paths and the locators of claims are cut at slashes only. A text can be split into all its pieces and
be put together from them again, and slashes at either end can be stripped.

The first piece is what stands before the first slash (`head`), and the others put together are what
stands after it (`tail`), so splitting and joining comes to one cut (`split_fst`, `joined_split_snd`).
-/

namespace ModelProvision.Slash

/-- The code point that texts are cut at. -/
def slash : CodePoint := '/'

/-- The pieces between the slashes: the first one, and those that follow. A text without a slash is one
piece. -/
def split : Text → Text × List Text
  | [] => ([], [])
  | p :: rest =>
    let pieces := split rest
    if p = slash then ([], pieces.1 :: pieces.2) else (p :: pieces.1, pieces.2)

/-- Pieces with a slash between any two that are neighbours. -/
def joined : List Text → Text
  | [] => []
  | [piece] => piece
  | piece :: next :: pieces => piece ++ slash :: joined (next :: pieces)

/-- What stands before the first slash. -/
def head (t : Text) : Text := t.takeWhile (· ≠ slash)

/-- What stands after the first slash; nothing when there is no slash. -/
def tail (t : Text) : Text := (t.dropWhile (· ≠ slash)).drop 1

/-- What stands after the last slash; the whole text when there is no slash. -/
def last (t : Text) : Text := (t.reverse.takeWhile (· ≠ slash)).reverse

/-- The text without the slashes it starts with. -/
def stripLeading (t : Text) : Text := t.dropWhile (· = slash)

/-- The text without the slashes it ends with. -/
def stripTrailing (t : Text) : Text := (t.reverse.dropWhile (· = slash)).reverse

/-- A directory and a path below it, with exactly one slash between them. -/
def join (directory below : Text) : Text :=
  stripTrailing directory ++ slash :: stripLeading below

/-! ### Splitting and joining

Both go by the recursion of `split`: in front of a slash it starts anew, in front of anything else the
first piece grows. -/

theorem split_cons_slash (t : Text) : split (slash :: t) = ([], (split t).1 :: (split t).2) := by
  simp only [split, if_pos]

theorem split_cons_of_ne {p : CodePoint} (hp : p ≠ slash) (t : Text) :
    split (p :: t) = (p :: (split t).1, (split t).2) := by
  simp only [split, if_neg hp]

/-- A first piece can grow without a change to what follows it. -/
theorem joined_cons_cons (p : CodePoint) (piece : Text) (pieces : List Text) :
    joined ((p :: piece) :: pieces) = p :: joined (piece :: pieces) := by
  cases pieces <;> rfl

/-- Joining undoes splitting. -/
theorem joined_split (t : Text) : joined ((split t).1 :: (split t).2) = t := by
  induction t with
  | nil => rfl
  | cons p t ih =>
    by_cases hp : p = slash
    · subst hp
      rw [split_cons_slash, joined, ih]
      rfl
    · rw [split_cons_of_ne hp, joined_cons_cons, ih]

/-- The first piece is what stands before the first slash … -/
theorem split_fst (t : Text) : (split t).1 = head t := by
  induction t with
  | nil => rfl
  | cons p t ih =>
    by_cases hp : p = slash
    · subst hp
      rw [split_cons_slash]
      rfl
    · rw [split_cons_of_ne hp, ih, head, head, List.takeWhile_cons_of_pos (by simpa using hp)]

/-- … and the other pieces together are what stands after it. -/
theorem joined_split_snd (t : Text) : joined (split t).2 = tail t := by
  induction t with
  | nil => rfl
  | cons p t ih =>
    by_cases hp : p = slash
    · subst hp
      rw [split_cons_slash, joined_split, tail, List.dropWhile_cons_of_neg (by simp)]
      rfl
    · rw [split_cons_of_ne hp, ih, tail, tail, List.dropWhile_cons_of_pos (by simpa using hp)]

/-! ### Cutting

The first piece holds no slash (`slash_not_mem_head`), cutting loses only the slash it cuts at
(`head_append_tail`), and a piece without a slash is cut off again from whatever is joined to it
(`head_append_slash`, `tail_append_slash`). -/

theorem slash_not_mem_head (t : Text) : slash ∉ head t := fun h => by
  simpa using List.all_eq_true.1 List.all_takeWhile slash h

theorem head_append_slash {piece : Text} (h : slash ∉ piece) (rest : Text) :
    head (piece ++ slash :: rest) = piece := by
  induction piece with
  | nil => simp [head]
  | cons p piece ih =>
    obtain ⟨hp, hpiece⟩ := not_or.1 (mt List.mem_cons.2 h)
    rw [List.cons_append, head, List.takeWhile_cons_of_pos (by simpa using Ne.symm hp)]
    exact congrArg (p :: ·) (ih hpiece)

theorem tail_append_slash {piece : Text} (h : slash ∉ piece) (rest : Text) :
    tail (piece ++ slash :: rest) = rest := by
  induction piece with
  | nil => simp [tail]
  | cons p piece ih =>
    obtain ⟨hp, hpiece⟩ := not_or.1 (mt List.mem_cons.2 h)
    rw [List.cons_append, tail, List.dropWhile_cons_of_pos (by simpa using Ne.symm hp)]
    exact ih hpiece

/-- Cutting at the first slash loses nothing but that slash. -/
theorem head_append_tail (t : Text) :
    t = if slash ∈ t then head t ++ slash :: tail t else head t := by
  induction t with
  | nil => rfl
  | cons p t ih =>
    by_cases hp : p = slash
    · simp [hp, head, tail]
    · have hmem : slash ∈ p :: t ↔ slash ∈ t := by simp [Ne.symm hp]
      have hhead : head (p :: t) = p :: head t := by simp [head, hp]
      have htail : tail (p :: t) = tail t := by simp [tail, hp]
      rw [hhead, htail]
      by_cases h : slash ∈ t
      · rw [if_pos (hmem.2 h)]
        rw [if_pos h] at ih
        exact congrArg (p :: ·) ih
      · rw [if_neg (mt hmem.1 h)]
        rw [if_neg h] at ih
        exact congrArg (p :: ·) ih

end ModelProvision.Slash
