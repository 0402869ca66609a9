import ModelProvision.Keyed

/-!
# Merging by key: where entries come from and what a map does

`Keyed.merge` only rearranges what it is given, and which places it picks is decided by the keys
alone. What one placement does to a list is said by `place_cases`. Of merges two facts are shown:

* **`mem_merge`**: every entry of a merged list is an existing entry or an addition (`mem_place`);
* **`map_merge`**: a map that keeps keys commutes with merging (`map_replaceLast?`, `map_place`), so
  entries may carry extra data through a merge and be stripped of it afterwards.
-/

namespace ModelProvision.Keyed

variable {α β κ : Type} [DecidableEq κ]

/-! ## One placement

Either the key is new, or the list is cut at the last entry that has it. -/

/-- Where an entry was replaced, the list is cut in two at it, and behind it no entry has the
key. -/
theorem replaceLast?_eq_some {key : α → κ} {x : α} {entries placed : List α}
    (h : replaceLast? key x entries = some placed) :
    ∃ front y back, entries = front ++ y :: back ∧ key y = key x ∧ key x ∉ back.map key ∧
      placed = front ++ x :: back := by
  induction entries generalizing placed with
  | nil => simp [replaceLast?] at h
  | cons z zs ih =>
    rw [replaceLast?] at h
    split at h
    · next deeper hdeeper =>
      obtain rfl := Option.some.inj h
      obtain ⟨front, y, back, rfl, hy, hback, rfl⟩ := ih hdeeper
      exact ⟨z :: front, y, back, rfl, hy, hback, rfl⟩
    · next hnone =>
      split at h
      · next hz =>
        obtain rfl := Option.some.inj h
        have hback : key x ∉ zs.map key := by
          rw [← replaceLast?_isSome_iff, hnone]
          simp
        exact ⟨[], z, zs, rfl, hz, hback, rfl⟩
      · exact absurd h (by simp)

/-- The two courses of one placement. Proofs about placing split here and never open
`replaceLast?`. -/
theorem place_cases (key : α → κ) (x : α) (entries : List α) :
    (key x ∉ entries.map key ∧ place key x entries = entries ++ [x]) ∨
      ∃ front y back, entries = front ++ y :: back ∧ key y = key x ∧ key x ∉ back.map key ∧
        place key x entries = front ++ x :: back := by
  rw [place]
  cases h : replaceLast? key x entries with
  | none =>
    refine .inl ⟨?_, rfl⟩
    rw [← replaceLast?_isSome_iff, h]
    simp
  | some placed =>
    obtain ⟨front, y, back, hentries, hy, hback, rfl⟩ := replaceLast?_eq_some h
    exact .inr ⟨front, y, back, hentries, hy, hback, rfl⟩

/-! ## Where the entries of a merged list come from -/

/-- Placing brings in the new entry and no other. -/
theorem mem_place {key : α → κ} {x y : α} {entries : List α} (hy : y ∈ place key x entries) :
    y = x ∨ y ∈ entries := by
  rcases place_cases key x entries with ⟨-, hplace⟩ | ⟨front, z, back, rfl, -, -, hplace⟩
  · rw [hplace] at hy
    exact (List.mem_append.mp hy).symm.imp_left List.mem_singleton.mp
  · rw [hplace, List.mem_append, List.mem_cons] at hy
    rcases hy with hfront | rfl | hback
    · exact .inr (List.mem_append_left _ hfront)
    · exact .inl rfl
    · exact .inr (List.mem_append_right _ (List.mem_cons_of_mem z hback))

/-- Merging makes no entries up. -/
theorem mem_merge {key : α → κ} {y : α} {existing additions : List α}
    (hy : y ∈ merge key existing additions) : y ∈ existing ∨ y ∈ additions := by
  -- each addition is placed in what the ones before it made of the list
  induction additions generalizing existing with
  | nil =>
    rw [merge_nil] at hy
    exact Or.inl hy
  | cons x rest ih =>
    rw [merge_cons] at hy
    rcases ih hy with hmem | hmem
    · rcases mem_place hmem with rfl | hold
      · exact Or.inr List.mem_cons_self
      · exact Or.inl hold
    · exact Or.inr (List.mem_cons_of_mem x hmem)

/-! ## Merging and mapping

A map `f` that keeps keys, `key' (f y) = key y`, may be applied before merging or after it. -/

section Map

variable {key : α → κ} {key' : β → κ} (f : α → β)

theorem map_replaceLast? (hkey : ∀ y, key' (f y) = key y) (x : α) (entries : List α) :
    (replaceLast? key x entries).map (List.map f) =
      replaceLast? key' (f x) (entries.map f) := by
  induction entries with
  | nil => rfl
  | cons z zs ih =>
    rw [List.map_cons, replaceLast?, replaceLast?, ← ih]
    cases replaceLast? key x zs with
    | some placed => rfl
    | none =>
      simp only [Option.map_none, hkey]
      split <;> rfl

/-- One placement commutes with a map that keeps keys. -/
theorem map_place (hkey : ∀ y, key' (f y) = key y) (x : α) (entries : List α) :
    (place key x entries).map f = place key' (f x) (entries.map f) := by
  rw [place, place, ← map_replaceLast? f hkey]
  cases replaceLast? key x entries with
  | none => simp
  | some placed => rfl

/-- **Merging commutes with a map that keeps keys.** -/
theorem map_merge (hkey : ∀ y, key' (f y) = key y) (existing additions : List α) :
    (merge key existing additions).map f = merge key' (existing.map f) (additions.map f) := by
  induction additions generalizing existing with
  | nil => rw [List.map_nil, merge_nil, merge_nil]
  | cons x rest ih => rw [List.map_cons, merge_cons, merge_cons, ih, map_place f hkey]

end Map

end ModelProvision.Keyed
