import ModelProvision.Proofs.Merge.Occurrences

/-!
# Looking keys up

Where the keys of a list are distinct, looking a key up finds the one entry that has it
(`find?_key_eq_some_iff`, `lookup?_eq_some_iff`), and placing an entry puts it in the place of that
one and leaves all others alone (`mem_place_iff`). So a placed value is found under its key, and what
is found under another key stays (`lookup?_place`).
-/

namespace ModelProvision.Keyed

variable {α β κ : Type} [DecidableEq κ]

/-- A placed entry is there, and of the others those with another key. -/
theorem mem_place_iff {key : α → κ} {entries : List α} (hdistinct : (entries.map key).Nodup)
    {x y : α} : y ∈ place key x entries ↔ y = x ∨ y ∈ entries ∧ key y ≠ key x := by
  rcases place_cases key x entries with ⟨hnew, hplace⟩ | ⟨front, z, back, rfl, hz, -, hplace⟩
  · rw [hplace, List.mem_append, List.mem_singleton, or_comm]
    refine or_congr_right (iff_self_and.mpr fun hy hkey => hnew ?_)
    rw [← hkey]
    exact List.mem_map_of_mem hy
  · -- `z` gives way to `x`, and no other entry has its key
    rw [List.map_append, List.map_cons, List.nodup_middle, List.nodup_cons, ← List.map_append,
      hz] at hdistinct
    have hothers : ∀ w ∈ front ++ back, key w ≠ key x := by
      intro w hw hkey
      exact hdistinct.1 (hkey ▸ List.mem_map_of_mem hw)
    have hmem : ∀ w, y ∈ front ++ w :: back ↔ y = w ∨ y ∈ front ++ back := by
      intro w
      rw [List.mem_append, List.mem_cons, List.mem_append, or_left_comm]
    rw [hplace, hmem, hmem]
    refine or_congr_right ⟨fun hy => ⟨.inr hy, hothers y hy⟩, ?_⟩
    rintro ⟨rfl | hy, hkey⟩
    · exact absurd hz hkey
    · exact hy

/-- An entry with a new key goes to the end. -/
theorem place_of_notMem {key : α → κ} {x : α} {entries : List α} (hnew : key x ∉ entries.map key) :
    place key x entries = entries ++ [x] := by
  rcases place_cases key x entries with ⟨-, hplace⟩ | ⟨front, z, back, rfl, hz, -, -⟩
  · exact hplace
  · exact absurd (hz ▸ List.mem_map_of_mem (by simp)) hnew

/-- Of distinct keys each leads to one entry, so the first one found is the one. -/
theorem find?_key_eq_some_iff {key : α → κ} {entries : List α}
    (hdistinct : (entries.map key).Nodup) {k : κ} {x : α} :
    entries.find? (fun y => key y = k) = some x ↔ x ∈ entries ∧ key x = k := by
  constructor
  · intro hfind
    exact ⟨List.mem_of_find?_eq_some hfind, by simpa using List.find?_some hfind⟩
  · rintro ⟨hmem, rfl⟩
    cases hfind : entries.find? fun y => key y = key x with
    | none => exact absurd (decide_eq_true rfl) (List.find?_eq_none.mp hfind x hmem)
    | some y =>
      have hkey : key y = key x := by simpa using List.find?_some hfind
      rw [List.inj_on_of_nodup_map hdistinct (List.mem_of_find?_eq_some hfind) hmem hkey]

/-- What is found under a key is paired with it. -/
theorem lookup?_eq_some_iff {pairs : List (κ × β)} (hdistinct : (pairs.map Prod.fst).Nodup) {k : κ}
    {v : β} : lookup? k pairs = some v ↔ (k, v) ∈ pairs := by
  simp only [lookup?, Option.map_eq_some_iff, find?_key_eq_some_iff hdistinct]
  constructor
  · rintro ⟨⟨k', v'⟩, ⟨hmem, rfl⟩, rfl⟩
    exact hmem
  · intro hmem
    exact ⟨(k, v), ⟨hmem, rfl⟩, rfl⟩

/-- A placed value is found under its key, and under other keys what was there before. -/
theorem lookup?_place {pairs : List (κ × β)} (hdistinct : (pairs.map Prod.fst).Nodup) (k k' : κ)
    (v : β) :
    lookup? k' (place Prod.fst (k, v) pairs) = if k' = k then some v else lookup? k' pairs := by
  have hplaced := nodup_keys_place Prod.fst (k, v) hdistinct
  refine Option.ext fun w => ?_
  rw [lookup?_eq_some_iff hplaced, mem_place_iff hdistinct, Prod.mk.injEq]
  split
  · next hk => simp [hk, eq_comm]
  · next hk => simp [hk, lookup?_eq_some_iff hdistinct]

theorem lookup?_append (k : κ) (front back : List (κ × β)) :
    lookup? k (front ++ back) = (lookup? k front).or (lookup? k back) := by
  rw [lookup?, lookup?, lookup?, List.find?_append, Option.map_or]

/-- A table of the values of a function holds what the function says. -/
theorem lookup?_map_self {keys : List κ} {k : κ} (hk : k ∈ keys) (f : κ → β) :
    lookup? k (keys.map fun k => (k, f k)) = some (f k) := by
  induction keys with
  | nil => exact absurd hk List.not_mem_nil
  | cons k' rest ih =>
    -- the first key that matches is the one that is found
    by_cases hkey : k' = k
    · simp [lookup?, hkey]
    · have hrest := ih ((List.mem_cons.mp hk).resolve_left (Ne.symm hkey))
      simpa [lookup?, hkey] using hrest

/-- Pairs whose keys are distinct are the table of what is found under their keys. -/
theorem eq_map_lookup? {pairs : List (κ × β)} (hdistinct : (pairs.map Prod.fst).Nodup) (v : β) :
    pairs = (pairs.map Prod.fst).map fun k => (k, (lookup? k pairs).getD v) := by
  rw [List.map_map]
  refine (List.map_id pairs).symm.trans (List.map_congr_left fun pair hpair => ?_)
  have hfound : lookup? pair.1 pairs = some pair.2 := (lookup?_eq_some_iff hdistinct).mpr hpair
  show pair = (pair.1, (lookup? pair.1 pairs).getD v)
  rw [hfound, Option.getD_some]

end ModelProvision.Keyed
