import ModelProvision.Proofs.Merge.Occurrences

/-!
# Merging by key: place by place, and again

What a merged list holds at each of its places is told by `Placed`, a description that places nothing:

* at the places of the existing list (`getElem?_merge_of_existing`) only the last entry of a key can
  change, and it gives way to the last addition of its key;
* behind them (`getLast?_of_getElem?_merge`) stands the last addition of each key that is new.

**`merge_placed`** says that merging fits the description and that nothing else does. Merging again
obeys three laws (**`merge_again`**): additions may come in one go or in two, and those that come
twice, or that have the keys of earlier ones, leave nothing of the earlier ones behind. A merge
keeps the places of the keys beside the entries and a second one takes them down anew, so even the
first law needs that the places are right throughout (`merge_eq_foldl`).
-/

namespace ModelProvision.Keyed

variable {α κ : Type} [DecidableEq κ] {key : α → κ}

/-! ## Place by place

An entry with key `k` is found among the entries of its key behind as many as stand before it, and
how many those are is up to the keys (`length_withKey_congr`). So where two lists have the same keys
up to a place, what stands there can be read off their entries of one key. -/

/-- How many entries have a key is up to the keys alone. -/
theorem length_withKey_congr {xs ys : List α} (h : xs.map key = ys.map key) (k : κ) :
    (withKey key k xs).length = (withKey key k ys).length := by
  have hcount : ∀ entries : List α, (withKey key k entries).length = (entries.map key).count k := by
    intro entries
    rw [withKey, ← List.countP_eq_length_filter, List.count, List.countP_map]
    refine List.countP_congr fun y _ => ?_
    simp
  rw [hcount, hcount, h]

/-- An entry stands among those of its key behind as many as come before its place. -/
theorem withKey_of_getElem? (key : α → κ) {entries : List α} {i : Nat} {y : α} (h : entries[i]? = some y) :
    withKey key (key y) entries =
      withKey key (key y) (entries.take i) ++ y :: withKey key (key y) (entries.drop (i + 1)) := by
  obtain ⟨hlt, rfl⟩ := List.getElem?_eq_some_iff.mp h
  have hcut : entries = entries.take i ++ entries[i] :: entries.drop (i + 1) := by
    rw [List.getElem_cons_drop, List.take_append_drop]
  have hview := congrArg (withKey key (key entries[i])) hcut
  rwa [withKey_append, withKey_cons_of_eq rfl] at hview

/-- Keys up to a place of the existing list are as they were, and those behind it are followed by new
ones only. -/
theorem keys_merge_around (key : α → κ) (existing additions : List α) {i : Nat} (hi : i < existing.length) :
    ((merge key existing additions).take i).map key = (existing.take i).map key ∧
      ∀ k ∈ existing.map key,
        (k ∈ ((merge key existing additions).drop (i + 1)).map key ↔
          k ∈ (existing.drop (i + 1)).map key) := by
  have hlength : i + 1 ≤ (existing.map key).length := by
    rw [List.length_map]
    exact hi
  constructor
  · rw [List.map_take, List.map_take, keys_merge, List.take_append_of_le_length (by omega)]
  · intro k hk
    rw [List.map_drop, List.map_drop, keys_merge, List.drop_append_of_le_length hlength,
      List.mem_append, or_iff_left]
    intro hnew
    have hfresh := (List.mem_filter.mp (List.mem_eraseDups.mp hnew)).2
    exact absurd hk (by simpa using hfresh)

/-- At a place of the existing list its entry is kept while another one of the key follows; otherwise
it gives way to the last addition of the key, if there is one. -/
theorem getElem?_merge_of_existing {existing : List α} {i : Nat} {y : α}
    (h : existing[i]? = some y) (additions : List α) :
    (merge key existing additions)[i]? = some
      (if key y ∈ (existing.drop (i + 1)).map key then y
      else (withKey key (key y) additions).getLast?.getD y) := by
  obtain ⟨hi, hy⟩ := List.getElem?_eq_some_iff.mp h
  have hmem : key y ∈ existing.map key := List.mem_map_of_mem (hy ▸ List.getElem_mem hi)
  obtain ⟨hfront, hback⟩ := keys_merge_around key existing additions hi
  -- some entry `x` with the key of `y` stands there
  have hkeys : ((merge key existing additions).map key)[i]? = some (key y) := by
    rw [keys_merge, List.getElem?_append_left (by rwa [List.length_map]), List.getElem?_map, h]
    rfl
  rw [List.getElem?_map, Option.map_eq_some_iff] at hkeys
  obtain ⟨x, hx, hxy⟩ := hkeys
  have hmerged := withKey_of_getElem? key hx
  have hexisting := withKey_of_getElem? key h
  rw [hxy] at hmerged
  have hcount := length_withKey_congr hfront (key y)
  rw [hx, Option.some_inj]
  split
  · next hlater =>
    -- neither `x` nor `y` is the last entry of the key, and the others are never touched
    have hlaterMerged : withKey key (key y) ((merge key existing additions).drop (i + 1)) ≠ [] :=
      mt withKey_eq_nil_iff.mp (not_not_intro ((hback (key y) hmem).mpr hlater))
    have hlaterExisting : withKey key (key y) (existing.drop (i + 1)) ≠ [] :=
      mt withKey_eq_nil_iff.mp (not_not_intro hlater)
    have hsame := dropLast_withKey_merge key (key y) existing additions
    rw [hmerged, hexisting, List.dropLast_append_of_ne_nil (List.cons_ne_nil _ _),
      List.dropLast_append_of_ne_nil (List.cons_ne_nil _ _),
      List.dropLast_cons_of_ne_nil hlaterMerged, List.dropLast_cons_of_ne_nil hlaterExisting] at hsame
    exact (List.cons.inj (List.append_inj hsame hcount).2).1
  · next hlast =>
    have hlastMerged : withKey key (key y) ((merge key existing additions).drop (i + 1)) = [] :=
      withKey_eq_nil_iff.mpr (mt (hback (key y) hmem).mp hlast)
    have hends := getLast?_withKey_merge key (key y) existing additions
    rw [hmerged, hexisting, hlastMerged, withKey_eq_nil_iff.mpr hlast, List.getLast?_concat,
      List.getLast?_concat] at hends
    cases hadded : (withKey key (key y) additions).getLast? with
    | none =>
      rw [hadded, Option.none_or] at hends
      exact Option.some.inj hends
    | some z =>
      rw [hadded, Option.some_or] at hends
      exact Option.some.inj hends

/-- Behind the existing entries each key stands once, so its entry is the last one of the key. -/
theorem getLast?_of_getElem?_merge {existing additions : List α} {i : Nat} {y : α}
    (hi : existing.length ≤ i) (h : (merge key existing additions)[i]? = some y) :
    (withKey key (key y) additions).getLast? = some y := by
  -- the key of `y` is one of the new keys
  have hkeys : ((merge key existing additions).map key)[i]? = some (key y) := by
    rw [List.getElem?_map, h]
    rfl
  rw [keys_merge, List.getElem?_append_right (by rwa [List.length_map])] at hkeys
  have hnew := (List.mem_filter.mp (List.mem_eraseDups.mp (List.mem_of_getElem? hkeys))).2
  have hnone : withKey key (key y) existing = [] := withKey_eq_nil_iff.mpr (by simpa using hnew)
  have hfront := dropLast_withKey_merge key (key y) existing additions
  have hlast := getLast?_withKey_merge key (key y) existing additions
  rw [hnone] at hfront hlast
  have hmem : y ∈ withKey key (key y) (merge key existing additions) :=
    mem_withKey.mpr ⟨List.mem_of_getElem? h, rfl⟩
  have hsingle : withKey key (key y) (merge key existing additions) = [y] := by
    have hlength : (withKey key (key y) (merge key existing additions)).length = 1 := by
      have hpos := List.length_pos_of_mem hmem
      have hrest := congrArg List.length hfront
      rw [List.length_dropLast, List.dropLast_nil, List.length_nil] at hrest
      omega
    obtain ⟨z, hz⟩ := List.length_eq_one_iff.mp hlength
    rw [hz] at hmem ⊢
    rw [List.mem_singleton.mp hmem]
  rw [hsingle, List.getLast?_nil, Option.or_none] at hlast
  exact hlast.symm

/-- What stands where in the list that merging the additions into the existing ones makes. -/
structure Placed (key : α → κ) (existing additions merged : List α) : Prop where
  /-- The keys of the additions that are not there yet follow, each once, in order of first use. -/
  keys_eq : merged.map key = existing.map key ++
    ((additions.map key).filter fun k => k ∉ existing.map key).eraseDups
  /-- An entry stays where another one of its key follows or no addition has its key. -/
  kept : ∀ (i : Nat) (y : α), existing[i]? = some y →
    key y ∈ (existing.drop (i + 1)).map key ∨ key y ∉ additions.map key → merged[i]? = some y
  /-- The last entry of a key gives way to the last addition of that key. -/
  replaced : ∀ (i : Nat) (y x : α), existing[i]? = some y →
    key y ∉ (existing.drop (i + 1)).map key →
    (withKey key (key y) additions).getLast? = some x → merged[i]? = some x
  /-- Behind the existing ones stands the last addition of each key. -/
  appended : ∀ (i : Nat) (y : α), existing.length ≤ i → merged[i]? = some y →
    (withKey key (key y) additions).getLast? = some y

/-- Merging does what the description says. -/
theorem placed_merge (key : α → κ) (existing additions : List α) :
    Placed key existing additions (merge key existing additions) where
  keys_eq := keys_merge key existing additions
  kept := by
    intro i y h hstays
    rw [getElem?_merge_of_existing h]
    rcases hstays with hlater | hnone
    · rw [if_pos hlater]
    · rw [withKey_eq_nil_iff.mpr hnone, List.getLast?_nil, Option.getD_none, ite_self]
  replaced := by
    intro i y x h hlast hx
    rw [getElem?_merge_of_existing h, if_neg hlast, hx, Option.getD_some]
  appended := fun _ _ => getLast?_of_getElem?_merge

/-- The description leaves nothing open: the keys fix the length, and every place is spoken for. -/
theorem Placed.unique {existing additions merged merged' : List α}
    (h : Placed key existing additions merged) (h' : Placed key existing additions merged') :
    merged = merged' := by
  have hkeys : merged.map key = merged'.map key := h.keys_eq.trans h'.keys_eq.symm
  refine List.ext_getElem? fun i => ?_
  cases hexisting : existing[i]? with
  | some y =>
    by_cases hstays : key y ∈ (existing.drop (i + 1)).map key ∨ key y ∉ additions.map key
    · rw [h.kept i y hexisting hstays, h'.kept i y hexisting hstays]
    · obtain ⟨hlast, hadded⟩ := not_or.mp hstays
      cases hx : (withKey key (key y) additions).getLast? with
      | none => exact absurd (withKey_eq_nil_iff.mp (List.getLast?_eq_none_iff.mp hx)) hadded
      | some x => rw [h.replaced i y x hexisting hlast hx, h'.replaced i y x hexisting hlast hx]
  | none =>
    have hi := List.getElem?_eq_none_iff.mp hexisting
    have hkey : merged[i]?.map key = merged'[i]?.map key := by
      rw [← List.getElem?_map, ← List.getElem?_map, hkeys]
    cases hx : merged[i]? with
    | none =>
      rw [hx, Option.map_none] at hkey
      exact (Option.map_eq_none_iff.mp hkey.symm).symm
    | some x =>
      rw [hx, Option.map_some] at hkey
      obtain ⟨x', hx', hsame⟩ := Option.map_eq_some_iff.mp hkey.symm
      -- both are the last addition of one key
      have hadded := h'.appended i x' hi hx'
      rw [hsame, h.appended i x hi hx] at hadded
      rw [hx', hadded]

/-- **What merging makes of two lists**, of which the existing one may be absent. The description
fits one list only. Its keys are those of the two lists, and they are distinct exactly when the
existing ones are. -/
theorem merge_placed (key : α → κ) (existing : Option (List α)) (additions : List α) :
    (∀ merged, Placed key (existing.getD []) additions merged ↔
      merged = merge key (existing.getD []) additions) ∧
    (((merge key (existing.getD []) additions).map key).Nodup ↔
      ((existing.getD []).map key).Nodup) ∧
    ∀ k, k ∈ (merge key (existing.getD []) additions).map key ↔
      k ∈ (existing.getD []).map key ∨ k ∈ additions.map key := by
  have hplaced := placed_merge key (existing.getD []) additions
  refine ⟨fun merged => ⟨fun h => h.unique hplaced, ?_⟩, ⟨fun hdistinct => ?_, ?_⟩, ?_⟩
  · rintro rfl
    exact hplaced
  · rw [hplaced.keys_eq] at hdistinct
    exact (List.nodup_append.mp hdistinct).1
  · exact nodup_keys_merge key additions
  · exact mem_keys_merge key (existing.getD []) additions

example : merge Prod.fst [(1, 'a'), (2, 'b'), (1, 'c')] [(3, 'd'), (1, 'e'), (3, 'f'), (1, 'g')] =
    [(1, 'a'), (2, 'b'), (1, 'g'), (3, 'f')] := by decide

/-! ## Merging again -/

/-- **The laws of merging again.** -/
theorem merge_again (key : α → κ) (existing : Option (List α)) (earlier later : List α) :
    merge key (merge key (existing.getD []) earlier) later =
        merge key (existing.getD []) (earlier ++ later) ∧
    merge key (merge key (existing.getD []) earlier) earlier =
        merge key (existing.getD []) earlier ∧
    (later.map key = earlier.map key →
      merge key (merge key (existing.getD []) earlier) later =
        merge key (existing.getD []) later) := by
  refine ⟨?_, ?_, ?_⟩
  · -- the second merge notes its positions anew, and placing does not depend on them
    rw [merge_eq_foldl, merge_eq_foldl, merge_eq_foldl, List.foldl_append]
  · exact merge_merge_of_keys_eq rfl _
  · intro hkeys
    exact merge_merge_of_keys_eq hkeys.symm _

/-- Additions with the keys of earlier ones, one key twice and one at an entry that comes twice. -/
theorem merge_again_renewed :
    merge Prod.fst (merge Prod.fst [(1, 'a'), (1, 'b')] [(2, 'c'), (1, 'd'), (2, 'e')])
        [(2, 'x'), (1, 'y'), (2, 'z')] = [(1, 'a'), (1, 'y'), (2, 'z')] := by
  have hkeys : [(2, 'x'), (1, 'y'), (2, 'z')].map Prod.fst =
      [(2, 'c'), (1, 'd'), (2, 'e')].map Prod.fst := rfl
  have hrenewed := (merge_again Prod.fst (some [(1, 'a'), (1, 'b')]) _ _).2.2 hkeys
  refine hrenewed.trans ?_
  decide

end ModelProvision.Keyed
