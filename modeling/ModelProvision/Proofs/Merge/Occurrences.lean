import Mathlib.Data.List.Nodup
import ModelProvision.Proofs.Merge

/-!
# Merging by key: what becomes of the entries of one key

A list of keyed entries is known once its keys are known in their order and, for each key, the
entries that have it (**`eq_of_withKey_eq`**). Merging is described by these two views:

* the keys depend on the keys alone (`keys_merge_congr`), none is lost and none appears from nowhere
  (`mem_keys_merge`);
* of the entries with one key all but the last are never touched (**`dropLast_withKey_merge`**), and
  the last is the last addition that has the key, if there is one (**`getLast?_withKey_merge`**).

So additions with the keys of earlier ones undo these entirely (`merge_merge_of_keys_eq`), and what
has the key of no addition stays as it was, in its order (`filter_merge`). The ordered map of a list
of pairs is what merging makes of them from nothing, and is described without it (`Collapses`).
-/

namespace ModelProvision.Keyed

variable {α κ : Type} [DecidableEq κ] {key : α → κ}

/-! ## Keys -/

/-- Placing adds one key and loses none. -/
theorem mem_keys_place (key : α → κ) (x : α) (entries : List α) (k : κ) :
    k ∈ (place key x entries).map key ↔ k ∈ entries.map key ∨ k = key x := by
  rw [keys_place]
  split
  · next hx =>
    refine ⟨.inl, ?_⟩
    rintro (hk | rfl)
    · exact hk
    · exact hx
  · rw [List.mem_append, List.mem_singleton]

/-- The keys of a merged list are those of the two lists. -/
theorem mem_keys_merge (key : α → κ) (existing additions : List α) (k : κ) :
    k ∈ (merge key existing additions).map key ↔
      k ∈ existing.map key ∨ k ∈ additions.map key := by
  induction additions generalizing existing with
  | nil => simp
  | cons x rest ih =>
    rw [merge_cons, ih, mem_keys_place, List.map_cons, List.mem_cons, or_assoc]

/-- Merging never looks at what entries hold besides their keys. -/
theorem keys_merge_congr {existing existing' additions additions' : List α}
    (hexisting : existing.map key = existing'.map key)
    (hadditions : additions.map key = additions'.map key) :
    (merge key existing additions).map key = (merge key existing' additions').map key := by
  -- keys are merged as entries that are their own keys
  have hkeys : ∀ entries more : List α,
      (merge key entries more).map key = merge id (entries.map key) (more.map key) :=
    map_merge key fun _ => rfl
  rw [hkeys, hkeys, hexisting, hadditions]

/-- Additions whose keys are all there only replace. -/
theorem keys_merge_of_forall_mem {existing additions : List α}
    (h : ∀ x ∈ additions, key x ∈ existing.map key) :
    (merge key existing additions).map key = existing.map key := by
  induction additions generalizing existing with
  | nil => rw [merge_nil]
  | cons x rest ih =>
    have hx : (place key x existing).map key = existing.map key := by
      rw [keys_place, if_pos (h x List.mem_cons_self)]
    have hrest : ∀ y ∈ rest, key y ∈ (place key x existing).map key := by
      intro y hy
      rw [hx]
      exact h y (List.mem_cons_of_mem x hy)
    rw [merge_cons, ih hrest, hx]

/-! ## Entries that no addition concerns -/

/-- A view that shows no entry of the key does not change when one is placed. -/
theorem filter_place {p : α → Bool} {x : α} (hp : ∀ y, key y = key x → p y = false)
    (entries : List α) : (place key x entries).filter p = entries.filter p := by
  have hx : p x = false := hp x rfl
  rcases place_cases key x entries with ⟨-, hplace⟩ | ⟨front, y, back, rfl, hy, -, hplace⟩
  · rw [hplace, List.filter_append, List.filter_cons_of_neg (by simp [hx]), List.filter_nil,
      List.append_nil]
  · have hy : p y = false := hp y hy
    rw [hplace, List.filter_append, List.filter_append, List.filter_cons, List.filter_cons, hx, hy]
    rfl

/-- Entries that have the key of no addition stay, in their order. -/
theorem filter_merge {p : α → Bool} {additions : List α}
    (hp : ∀ x ∈ additions, ∀ y, key y = key x → p y = false) (existing : List α) :
    (merge key existing additions).filter p = existing.filter p := by
  induction additions generalizing existing with
  | nil => rw [merge_nil]
  | cons x rest ih =>
    rw [merge_cons, ih fun y hy => hp y (List.mem_cons_of_mem x hy),
      filter_place (hp x List.mem_cons_self)]

/-! ## The entries of one key -/

/-- The entries with key `k`, in their order. -/
def withKey (key : α → κ) (k : κ) (entries : List α) : List α :=
  entries.filter fun y => key y = k

theorem mem_withKey {k : κ} {y : α} {entries : List α} :
    y ∈ withKey key k entries ↔ y ∈ entries ∧ key y = k := by
  rw [withKey, List.mem_filter, decide_eq_true_iff]

theorem withKey_append (key : α → κ) (k : κ) (front back : List α) :
    withKey key k (front ++ back) = withKey key k front ++ withKey key k back :=
  List.filter_append ..

theorem withKey_cons_of_eq {k : κ} {x : α} (h : key x = k) (entries : List α) :
    withKey key k (x :: entries) = x :: withKey key k entries :=
  List.filter_cons_of_pos (decide_eq_true h)

theorem withKey_cons_of_ne {k : κ} {x : α} (h : key x ≠ k) (entries : List α) :
    withKey key k (x :: entries) = withKey key k entries :=
  List.filter_cons_of_neg (by rw [decide_eq_true_iff]; exact h)

/-- A key that no entry has is one that the keys do not list. -/
theorem withKey_eq_nil_iff {k : κ} {entries : List α} :
    withKey key k entries = [] ↔ k ∉ entries.map key := by
  rw [withKey, List.filter_eq_nil_iff, List.mem_map]
  simp

/-- Where keys are distinct, an entry is the only one of its key. -/
theorem withKey_of_nodup {entries : List α} (hdistinct : (entries.map key).Nodup) {x : α}
    (hx : x ∈ entries) : withKey key (key x) entries = [x] := by
  obtain ⟨front, back, rfl⟩ := List.append_of_mem hx
  rw [List.map_append, List.map_cons, List.nodup_middle, List.nodup_cons] at hdistinct
  obtain ⟨hfront, hback⟩ := not_or.mp (mt List.mem_append.mpr hdistinct.1)
  rw [withKey_append, withKey_cons_of_eq rfl, withKey_eq_nil_iff.mpr hfront,
    withKey_eq_nil_iff.mpr hback, List.nil_append]

/-- **The two views determine a list.** -/
theorem eq_of_withKey_eq {xs ys : List α} (hkeys : xs.map key = ys.map key)
    (h : ∀ k, withKey key k xs = withKey key k ys) : xs = ys := by
  induction xs generalizing ys with
  | nil => exact (List.map_eq_nil_iff.mp hkeys.symm).symm
  | cons x xs ih =>
    cases ys with
    | nil => exact absurd hkeys (by simp)
    | cons y ys =>
      obtain ⟨hkey, hrest⟩ : key x = key y ∧ xs.map key = ys.map key := List.cons.inj hkeys
      -- the heads are the first entries of their key
      have hheads := h (key x)
      rw [withKey_cons_of_eq rfl, withKey_cons_of_eq hkey.symm] at hheads
      obtain ⟨rfl, hsame⟩ := List.cons.inj hheads
      have htails : ∀ k, withKey key k xs = withKey key k ys := by
        intro k
        by_cases hk : key x = k
        · rw [← hk]
          exact hsame
        · have hother := h k
          rwa [withKey_cons_of_ne hk, withKey_cons_of_ne hk] at hother
      rw [ih hrest htails]

/-- A list is what comes before its last entry, and that entry. -/
theorem eq_of_dropLast_of_getLast? {xs ys : List α} (hfront : xs.dropLast = ys.dropLast)
    (hlast : xs.getLast? = ys.getLast?) : xs = ys := by
  cases h : ys.getLast? with
  | none =>
    rw [h] at hlast
    rw [List.getLast?_eq_none_iff.mp hlast, List.getLast?_eq_none_iff.mp h]
  | some last =>
    rw [h] at hlast
    rw [← List.dropLast_append_getLast? last hlast, ← List.dropLast_append_getLast? last h, hfront]

/-! ## The entries of one key in a merged list -/

/-- Among the entries of its own key the new one takes the last place. -/
theorem withKey_place_self (key : α → κ) (x : α) (entries : List α) :
    withKey key (key x) (place key x entries) =
      (withKey key (key x) entries).dropLast ++ [x] := by
  rcases place_cases key x entries with ⟨hnew, hplace⟩ | ⟨front, y, back, rfl, hy, hback, hplace⟩
  · rw [hplace, withKey_append, withKey_eq_nil_iff.mpr hnew, withKey_cons_of_eq rfl]
    rfl
  · -- what stands behind the replaced entry has other keys
    rw [hplace, withKey_append, withKey_append, withKey_cons_of_eq rfl, withKey_cons_of_eq hy,
      withKey_eq_nil_iff.mpr hback, List.dropLast_concat]

/-- The entries of other keys do not notice. -/
theorem withKey_place_of_ne {k : κ} {x : α} (h : key x ≠ k) (entries : List α) :
    withKey key k (place key x entries) = withKey key k entries := by
  refine filter_place (fun y hy => decide_eq_false ?_) entries
  rw [hy]
  exact h

/-- **Only the last entry of a key is ever replaced.** -/
theorem dropLast_withKey_merge (key : α → κ) (k : κ) (existing additions : List α) :
    (withKey key k (merge key existing additions)).dropLast =
      (withKey key k existing).dropLast := by
  induction additions generalizing existing with
  | nil => rw [merge_nil]
  | cons x rest ih =>
    have hplace : (withKey key k (place key x existing)).dropLast =
        (withKey key k existing).dropLast := by
      by_cases hx : key x = k
      · rw [← hx, withKey_place_self, List.dropLast_concat]
      · rw [withKey_place_of_ne hx]
    rw [merge_cons, ih, hplace]

/-- **The last addition of a key comes out last.** -/
theorem getLast?_withKey_merge (key : α → κ) (k : κ) (existing additions : List α) :
    (withKey key k (merge key existing additions)).getLast? =
      (withKey key k additions).getLast?.or (withKey key k existing).getLast? := by
  induction additions generalizing existing with
  | nil =>
    rw [merge_nil]
    rfl
  | cons x rest ih =>
    rw [merge_cons, ih]
    by_cases hx : key x = k
    · subst hx
      rw [withKey_place_self, List.getLast?_concat, withKey_cons_of_eq rfl, List.getLast?_cons,
        Option.some_or]
      -- a later addition with the key counts before `x`
      cases (withKey key (key x) rest).getLast? <;> rfl
    · rw [withKey_place_of_ne hx, withKey_cons_of_ne hx]

example : merge Prod.fst [(1, 'a'), (1, 'b'), (2, 'c')] [(1, 'd'), (3, 'e')] =
    [(1, 'a'), (1, 'd'), (2, 'c'), (3, 'e')] := by decide

/-- An addition that shares its key with no other one is among the merged entries. -/
theorem mem_merge_of_nodup {additions : List α} (hdistinct : (additions.map key).Nodup) {x : α}
    (hx : x ∈ additions) (existing : List α) : x ∈ merge key existing additions := by
  have hlast := getLast?_withKey_merge key (key x) existing additions
  rw [withKey_of_nodup hdistinct hx, List.getLast?_singleton, Option.some_or] at hlast
  exact (mem_withKey.mp (List.mem_of_getLast? hlast)).1

/-- Where no key stands twice, an addition is all that is merged under its key. -/
theorem withKey_merge_of_mem {existing additions : List α}
    (hexisting : (existing.map key).Nodup) (hadditions : (additions.map key).Nodup) {x : α}
    (hx : x ∈ additions) : withKey key (key x) (merge key existing additions) = [x] :=
  withKey_of_nodup (nodup_keys_merge key additions hexisting)
    (mem_merge_of_nodup hadditions hx existing)

/-- Where the additions have the keys of those before them, these are as if never made. -/
theorem merge_merge_of_keys_eq {earlier later : List α} (h : earlier.map key = later.map key)
    (existing : List α) :
    merge key (merge key existing earlier) later = merge key existing later := by
  have hsettled : ∀ x ∈ later, key x ∈ (merge key existing earlier).map key := by
    intro x hx
    rw [mem_keys_merge, h]
    exact .inr (List.mem_map_of_mem hx)
  have hkeys : (merge key (merge key existing earlier) later).map key =
      (merge key existing later).map key :=
    (keys_merge_of_forall_mem hsettled).trans (keys_merge_congr rfl h)
  refine eq_of_withKey_eq hkeys fun k => ?_
  have hfront : (withKey key k (merge key (merge key existing earlier) later)).dropLast =
      (withKey key k (merge key existing later)).dropLast := by
    rw [dropLast_withKey_merge, dropLast_withKey_merge, dropLast_withKey_merge]
  have hlast : (withKey key k (merge key (merge key existing earlier) later)).getLast? =
      (withKey key k (merge key existing later)).getLast? := by
    rw [getLast?_withKey_merge, getLast?_withKey_merge, getLast?_withKey_merge]
    by_cases hk : k ∈ later.map key
    · obtain ⟨x, hx⟩ := Option.ne_none_iff_exists'.mp
        (mt List.getLast?_eq_none_iff.mp (mt withKey_eq_nil_iff.mp (not_not_intro hk)))
      rw [hx, Option.some_or, Option.some_or]
    · -- then no earlier addition had the key either
      rw [withKey_eq_nil_iff.mpr hk, withKey_eq_nil_iff.mpr (h ▸ hk)]
      rfl
  exact eq_of_dropLast_of_getLast? hfront hlast

/-! ## Ordered maps

What an ordered map holds can be said without placing anything: `Collapses` is a description, and
`collapses_iff` says that only `ofPairs` fits it. -/

/-- Each key of the pairs once, at its first place, with its last value. -/
def Collapses {β : Type} (pairs entries : List (κ × β)) : Prop :=
  entries.map Prod.fst = (pairs.map Prod.fst).eraseDups ∧
    ∀ e ∈ entries, (pairs.filter fun p => p.1 = e.1).getLast? = some e

/-- The existing keys as they were, then the new ones in the order of their first use. -/
theorem keys_merge (key : α → κ) (existing additions : List α) :
    (merge key existing additions).map key =
      existing.map key ++
        ((additions.map key).filter fun k => k ∉ existing.map key).eraseDups := by
  induction additions generalizing existing with
  | nil => simp
  | cons x rest ih =>
    rw [merge_cons, ih, keys_place, List.map_cons]
    by_cases hx : key x ∈ existing.map key
    · rw [if_pos hx, List.filter_cons_of_neg (by simpa using hx)]
    · rw [if_neg hx, List.filter_cons_of_pos (by simpa using hx), List.eraseDups_cons,
        List.append_assoc, List.filter_filter]
      simp only [List.singleton_append, List.mem_append, List.mem_singleton, not_or]
      congr 3
      refine List.filter_congr fun k _ => ?_
      rw [Bool.decide_and, Bool.and_comm, decide_not]
      rfl

/-- An ordered map has each key at its first place with its last value … -/
theorem collapses_ofPairs {β : Type} (pairs : List (κ × β)) : Collapses pairs (ofPairs pairs) := by
  constructor
  · have hkeys := keys_merge Prod.fst [] pairs
    rw [List.filter_eq_self.mpr (by simp)] at hkeys
    exact hkeys
  · intro e he
    have hlast := getLast?_withKey_merge Prod.fst e.1 [] pairs
    have hentry : withKey Prod.fst e.1 (ofPairs pairs) = [e] :=
      withKey_of_nodup (nodup_keys_ofPairs pairs) he
    rw [← ofPairs, hentry] at hlast
    simpa [withKey] using hlast.symm

/-- … and nothing else is described by that. -/
theorem collapses_iff {β : Type} {pairs entries : List (κ × β)} :
    Collapses pairs entries ↔ entries = ofPairs pairs := by
  -- the keys and the pairs give back every entry
  have hself : ∀ es : List (κ × β), Collapses pairs es →
      (pairs.map Prod.fst).eraseDups.filterMap
        (fun k => (pairs.filter fun p => p.1 = k).getLast?) = es := by
    rintro es ⟨hkeys, hlast⟩
    rw [← hkeys, List.filterMap_map]
    exact (List.filterMap_congr hlast).trans List.filterMap_some
  constructor
  · intro h
    rw [← hself entries h, hself _ (collapses_ofPairs pairs)]
  · rintro rfl
    exact collapses_ofPairs pairs

end ModelProvision.Keyed
