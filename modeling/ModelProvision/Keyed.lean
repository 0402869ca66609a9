/-!
# Lists of keyed entries

Volumes, mounts, environment variables and the members of a document are lists whose entries carry a
key, and a list may hold a key more than once. Two operations add to such a list:

* `Keyed.place` puts one entry where the *last* entry with its key stands, or at the end;
* `Keyed.merge` does so for a list of entries. It is a loop that keeps the index of the last entry of
  each key, so that no entry is searched for (`Keyed.Merging`).

The loop is a simulation of placing (`Merging.add_tracks`), so a merge places its additions one after
another (`merge_eq_foldl`). Placing never moves an entry and never drops a key. Merged into the empty
list, pairs become an ordered map: each key at its first place with its last value (`Keyed.ofPairs`).
-/

namespace ModelProvision.Keyed

variable {α κ : Type} [DecidableEq κ]

/-- Put `x` where the last entry with its key stands; `none` when no entry has that key. -/
def replaceLast? (key : α → κ) (x : α) : List α → Option (List α)
  | [] => none
  | y :: ys =>
    match replaceLast? key x ys with
    | some placed => some (y :: placed)
    | none => if key y = key x then some (x :: ys) else none

/-- Put `x` where the last entry with its key stands, or at the end when no entry has that key. -/
def place (key : α → κ) (x : α) (entries : List α) : List α :=
  (replaceLast? key x entries).getD (entries ++ [x])

/-- The value of the first pair with key `k`. -/
def lookup? {β : Type} (k : κ) (pairs : List (κ × β)) : Option β :=
  (pairs.find? fun p => p.1 = k).map Prod.snd

/-- A merge under way: the entries so far, and where the last one of each key stands. Of the positions
of one key the first pair counts. -/
structure Merging (α κ : Type) where
  entries : List α
  positions : List (κ × Nat)

namespace Merging

/-- Put an entry at the end and note its position. -/
def record (key : α → κ) (m : Merging α κ) (x : α) : Merging α κ where
  entries := m.entries ++ [x]
  positions := (key x, m.entries.length) :: m.positions

/-- The existing entries, with the position of each noted in their order. -/
def start (key : α → κ) (existing : List α) : Merging α κ := existing.foldl (record key) ⟨[], []⟩

/-- One addition: it takes the place that is noted for its key. -/
def add (key : α → κ) (m : Merging α κ) (x : α) : Merging α κ :=
  match lookup? (key x) m.positions with
  | some i => { m with entries := m.entries.set i x }
  | none => m.record key x

end Merging

/-- The existing entries with the additions, of which several with one key leave the last one. -/
def merge (key : α → κ) (existing additions : List α) : List α :=
  (additions.foldl (Merging.add key) (Merging.start key existing)).entries

/-- The additions that find their key taken, by an existing entry or by an earlier addition. -/
def displacing (key : α → κ) (existing : List α) : List α → List α
  | [] => []
  | x :: rest =>
    let later := displacing key (place key x existing) rest
    if key x ∈ existing.map key then x :: later else later

/-- The ordered map of a list of pairs: each key at its first place, with its last value. -/
def ofPairs {β : Type} (pairs : List (κ × β)) : List (κ × β) :=
  merge Prod.fst [] pairs

/-! ### What placing leaves alone

Whether an entry takes the place of another is decided by the keys alone
(`replaceLast?_isSome_iff`), and a replaced list keeps its keys in order (`keys_replaceLast?`), so
the keys of `place key x entries` are those of `entries`, followed by the key of `x` exactly when it
is new (`keys_place`). -/

theorem replaceLast?_isSome_iff (key : α → κ) (x : α) (entries : List α) :
    (replaceLast? key x entries).isSome ↔ key x ∈ entries.map key := by
  induction entries with
  | nil => simp [replaceLast?]
  | cons y ys ih =>
    cases h : replaceLast? key x ys <;> simp [replaceLast?, h] at ih ⊢ <;> grind

theorem keys_replaceLast? (key : α → κ) (x : α) {entries placed : List α}
    (h : replaceLast? key x entries = some placed) : placed.map key = entries.map key := by
  induction entries generalizing placed with
  | nil => simp [replaceLast?] at h
  | cons y ys ih =>
    rw [replaceLast?] at h
    split at h
    · next deeper hd =>
      obtain rfl := Option.some.inj h
      simp [ih hd]
    · split at h
      · next hkey =>
        obtain rfl := Option.some.inj h
        simp [hkey]
      · simp at h

theorem keys_place (key : α → κ) (x : α) (entries : List α) :
    (place key x entries).map key =
      if key x ∈ entries.map key then entries.map key else entries.map key ++ [key x] := by
  rw [place]
  cases h : replaceLast? key x entries with
  | none =>
    have hnew : key x ∉ entries.map key := by
      rw [← replaceLast?_isSome_iff, h]; simp
    simp [hnew]
  | some placed =>
    have hold : key x ∈ entries.map key := by
      rw [← replaceLast?_isSome_iff, h]; simp
    rw [if_pos hold]
    exact keys_replaceLast? key x h

/-! ### The loop is placing

A merge under way tracks its entries when for every key the noted position is the index of the last
entry that has it (`Merging.Tracks`). Recording and adding keep that so, and what adding does to the
entries is `place` (`Merging.add_tracks`). -/

/-- The index of the last entry with key `k`. -/
def lastIndex? (key : α → κ) (k : κ) : List α → Option Nat
  | [] => none
  | y :: ys =>
    match lastIndex? key k ys with
    | some i => some (i + 1)
    | none => if key y = k then some 0 else none

/-- The last entry with a key is replaced at its index. -/
theorem replaceLast?_eq_map_set (key : α → κ) (x : α) (entries : List α) :
    replaceLast? key x entries = (lastIndex? key (key x) entries).map fun i => entries.set i x := by
  induction entries with
  | nil => rfl
  | cons y ys ih =>
    rw [replaceLast?, lastIndex?, ih]
    cases lastIndex? key (key x) ys with
    | some i => rfl
    | none =>
      by_cases hkey : key y = key x
      · simp [hkey]
      · simp [hkey]

/-- Indices of last entries are up to the keys alone. -/
theorem lastIndex?_congr {key : α → κ} {entries entries' : List α}
    (h : entries.map key = entries'.map key) (k : κ) :
    lastIndex? key k entries = lastIndex? key k entries' := by
  induction entries generalizing entries' with
  | nil => rw [List.map_eq_nil_iff.mp h.symm]
  | cons y ys ih =>
    cases entries' with
    | nil => exact absurd h (by simp)
    | cons y' ys' =>
      obtain ⟨hhead, htail⟩ := List.cons.inj h
      rw [lastIndex?, lastIndex?, ih htail, hhead]

theorem lastIndex?_append_singleton (key : α → κ) (k : κ) (entries : List α) (x : α) :
    lastIndex? key k (entries ++ [x]) =
      if key x = k then some entries.length else lastIndex? key k entries := by
  induction entries with
  | nil => rfl
  | cons y ys ih =>
    rw [List.cons_append, lastIndex?, ih]
    by_cases hkey : key x = k
    · simp [hkey]
    · simp only [if_neg hkey]
      rfl

namespace Merging

/-- The noted positions are the right ones. -/
def Tracks (key : α → κ) (m : Merging α κ) : Prop :=
  ∀ k, lookup? k m.positions = lastIndex? key k m.entries

theorem Tracks.record {key : α → κ} {m : Merging α κ} (h : m.Tracks key) (x : α) :
    (m.record key x).Tracks key := by
  intro k
  show lookup? k ((key x, m.entries.length) :: m.positions) = lastIndex? key k (m.entries ++ [x])
  rw [lastIndex?_append_singleton, ← h k]
  by_cases hkey : key x = k
  · simp [lookup?, hkey]
  · simp [lookup?, hkey]

/-- Recording one entry after another, from any state on. -/
theorem foldl_record (key : α → κ) (entries : List α) {m : Merging α κ} (h : m.Tracks key) :
    (entries.foldl (record key) m).Tracks key ∧
      (entries.foldl (record key) m).entries = m.entries ++ entries := by
  induction entries generalizing m with
  | nil => exact ⟨h, (List.append_nil _).symm⟩
  | cons x rest ih =>
    obtain ⟨htracks, hentries⟩ := ih (h.record x)
    refine ⟨htracks, hentries.trans ?_⟩
    rw [Merging.record, List.append_assoc]
    rfl

theorem tracks_start (key : α → κ) (existing : List α) : (start key existing).Tracks key :=
  (foldl_record key existing fun _ => rfl).1

theorem entries_start (key : α → κ) (existing : List α) : (start key existing).entries = existing :=
  (foldl_record key existing (m := ⟨[], []⟩) fun _ => rfl).2

/-- **One round of the loop places its entry**, and the positions stay right. -/
theorem add_tracks {key : α → κ} {m : Merging α κ} (h : m.Tracks key) (x : α) :
    (m.add key x).Tracks key ∧ (m.add key x).entries = place key x m.entries := by
  have hnoted := h (key x)
  rw [add, place, replaceLast?_eq_map_set, ← hnoted]
  cases hfound : lookup? (key x) m.positions with
  | none => exact ⟨h.record x, rfl⟩
  | some i =>
    refine ⟨fun k => (h k).trans (lastIndex?_congr ?_ k), rfl⟩
    -- the entry that is replaced has the key of the new one
    have hreplaced : replaceLast? key x m.entries = some (m.entries.set i x) := by
      rw [replaceLast?_eq_map_set, ← hnoted, hfound]
      rfl
    exact (keys_replaceLast? key x hreplaced).symm

/-- From a state that tracks its entries, the loop places all additions. -/
theorem entries_foldl_add {key : α → κ} (additions : List α) {m : Merging α κ} (h : m.Tracks key) :
    (additions.foldl (add key) m).entries =
      additions.foldl (fun merged x => place key x merged) m.entries := by
  induction additions generalizing m with
  | nil => rfl
  | cons x rest ih =>
    obtain ⟨htracks, hentries⟩ := add_tracks h x
    rw [List.foldl_cons, List.foldl_cons, ih htracks, hentries]

end Merging

/-- **Merging is placing the additions one after another.** -/
theorem merge_eq_foldl (key : α → κ) (existing additions : List α) :
    merge key existing additions = additions.foldl (fun merged x => place key x merged) existing := by
  rw [merge, Merging.entries_foldl_add additions (Merging.tracks_start key existing),
    Merging.entries_start]

@[simp] theorem merge_nil (key : α → κ) (existing : List α) : merge key existing [] = existing := by
  rw [merge_eq_foldl, List.foldl_nil]

/-- The recursion that proofs about merges go by. -/
theorem merge_cons (key : α → κ) (existing : List α) (x : α) (rest : List α) :
    merge key existing (x :: rest) = merge key (place key x existing) rest := by
  rw [merge_eq_foldl, merge_eq_foldl, List.foldl_cons]

theorem merge_singleton (key : α → κ) (existing : List α) (x : α) :
    merge key existing [x] = place key x existing := by
  rw [merge_cons, merge_nil]

/-! ### Distinct keys

Placing keeps keys distinct, hence so does merging, and an ordered map has each key once. -/

theorem nodup_keys_place (key : α → κ) (x : α) {entries : List α}
    (h : (entries.map key).Nodup) : ((place key x entries).map key).Nodup := by
  rw [keys_place]
  split
  · exact h
  · next hnew => grind

theorem nodup_keys_merge (key : α → κ) {existing : List α} (additions : List α)
    (h : (existing.map key).Nodup) : ((merge key existing additions).map key).Nodup := by
  induction additions generalizing existing with
  | nil => rwa [merge_nil]
  | cons x rest ih =>
    rw [merge_cons]
    exact ih (nodup_keys_place key x h)

theorem nodup_keys_ofPairs {β : Type} (pairs : List (κ × β)) :
    ((ofPairs pairs).map Prod.fst).Nodup :=
  nodup_keys_merge Prod.fst pairs List.nodup_nil

end ModelProvision.Keyed
