import Mathlib.Data.List.Induction
import ModelProvision.Proofs.Merge.Lookup
import ModelProvision.Settings.DotEnv

/-!
# What an environment file assigns

A file stands for one value of each of its keys, or for none where the key has no value: what the
last binding of the key gives (**`mem_assign_iff`**). Of the other bindings only those before it
count, and only where its value refers to a name; a value without a reference is assigned as it
stands (`expand_eq_self`).
-/

namespace ModelProvision.DotEnv

/-- The bindings of a file are the one that is scanned first, if it is one, and those of the
rest. -/
theorem bindings_of_scan {t rest : Text} {b? : Option Binding} (hne : t ≠ [])
    (hscan : scanBinding t = (b?, rest)) : bindings t = b?.toList ++ bindings rest := by
  cases t with
  | nil => exact absurd rfl hne
  | cons p t =>
    rw [bindings.eq_def]
    simp only [hscan]

/-- What a binding gives its key once those before it have been carried out. -/
def Binding.given (environment : List (Text × Text)) (before : List Binding) (b : Binding) :
    Option Text :=
  b.value.map fun raw =>
    expand (resolve environment (before.foldl (assignOne environment) [])) raw.length raw

/-- A key stands for one thing at a time. -/
theorem nodup_keys_foldl_assignOne (environment : List (Text × Text)) (bs : List Binding) :
    ((bs.foldl (assignOne environment) []).map Prod.fst).Nodup := by
  induction bs using List.reverseRecOn with
  | nil => exact List.nodup_nil
  | append_singleton bs b ih =>
    rw [List.foldl_append]
    exact Keyed.nodup_keys_place Prod.fst _ ih

/-- After some bindings a key stands for what the last of its own gave it. -/
theorem mem_foldl_assignOne_iff {environment : List (Text × Text)} {bs : List Binding} {key : Text}
    {value? : Option Text} :
    (key, value?) ∈ bs.foldl (assignOne environment) [] ↔
      ∃ before b after, bs = before ++ b :: after ∧ b.key = key ∧ key ∉ after.map Binding.key ∧
        b.given environment before = value? := by
  -- the last binding is placed in what the ones before it assigned
  induction bs using List.reverseRecOn with
  | nil => simp
  | append_singleton bs last ih =>
    have hlast : (bs ++ [last]).foldl (assignOne environment) [] =
        Keyed.place Prod.fst (last.key, last.given environment bs)
          (bs.foldl (assignOne environment) []) := by
      rw [List.foldl_append]
      rfl
    rw [hlast, Keyed.mem_place_iff (nodup_keys_foldl_assignOne environment bs), ih]
    constructor
    · rintro (hnew | ⟨⟨before, b, after, rfl, hkey, hlater, hgiven⟩, hne⟩)
      · obtain ⟨rfl, rfl⟩ := Prod.mk.inj hnew
        exact ⟨bs, last, [], rfl, rfl, by simp, rfl⟩
      -- an entry from before is still the last of its key, as the new one has another
      · have hlater' : key ∉ (after ++ [last]).map Binding.key := by
          rw [List.map_append, List.mem_append, not_or]
          exact ⟨hlater, by simpa using hne⟩
        exact ⟨before, b, after ++ [last], by simp, hkey, hlater', hgiven⟩
    · rintro ⟨before, b, after, hsplit, hkey, hlater, hgiven⟩
      rcases List.eq_nil_or_concat' after with rfl | ⟨after, other, rfl⟩
      -- the split is at the last binding, or before it
      · obtain ⟨rfl, hb⟩ := List.append_inj' hsplit rfl
        obtain rfl := List.singleton_inj.mp hb
        exact .inl (by rw [hkey, hgiven])
      · rw [← List.cons_append, ← List.append_assoc] at hsplit
        obtain ⟨rfl, hb⟩ := List.append_inj' hsplit rfl
        obtain rfl := List.singleton_inj.mp hb
        rw [List.map_append, List.mem_append, not_or] at hlater
        exact .inr ⟨⟨before, b, after, rfl, hkey, hlater.1, hgiven⟩, by simpa using hlater.2⟩

/-- **The last binding of a key decides what the key stands for.** -/
theorem mem_assign_iff {environment : List (Text × Text)} {file key : Text}
    {value? : Option Text} :
    (key, value?) ∈ assign environment file ↔
      ∃ before b after, bindings (unifyLineEnds file) = before ++ b :: after ∧ b.key = key ∧
        key ∉ after.map Binding.key ∧ b.given environment before = value? :=
  mem_foldl_assignOne_iff

/-! ## Values without a reference -/

/-- The two characters that a reference starts with. -/
def opening : Text := [.char '$', .char '\x7b']

/-- Without a reference there is nothing to replace … -/
theorem expand_eq_self {resolve : Text → Text → Text} {fuel : Nat} {t : Text}
    (h : ¬ opening <:+: t) : expand resolve fuel t = t := by
  fun_induction expand resolve fuel t with
  | case1 => rfl
  | case2 => rfl
  -- the two cases in which a reference starts here
  | case3 => exact absurd ⟨[], _, rfl⟩ h
  | case4 => exact absurd ⟨[], _, rfl⟩ h
  | case5 _ _ _ _ ih => rw [ih (mt List.infix_cons h)]

/-- … so a value is given as it was written, whatever was bound before. -/
theorem Binding.given_of_plain {b : Binding} {raw : Text} (hraw : b.value = some raw)
    (hplain : ¬ opening <:+: raw) (environment : List (Text × Text)) (before : List Binding) :
    b.given environment before = some raw := by
  rw [given, hraw, Option.map_some, expand_eq_self hplain]

/-- Plain values under distinct keys are assigned as they stand. By induction from the last binding,
which finds its key new. -/
theorem foldl_assignOne_of_plain {bs : List Binding} (environment : List (Text × Text))
    (hdistinct : (bs.map Binding.key).Nodup)
    (hplain : ∀ b ∈ bs, ∃ raw, b.value = some raw ∧ ¬ opening <:+: raw) :
    bs.foldl (assignOne environment) [] = bs.map fun b => (b.key, b.value) := by
  induction bs using List.reverseRecOn with
  | nil => rfl
  | append_singleton bs b ih =>
    rw [List.map_append, List.map_singleton, List.nodup_append] at hdistinct
    obtain ⟨hdistinct, -, hnew⟩ := hdistinct
    obtain ⟨raw, hraw, hb⟩ := hplain b (by simp)
    have hkey : b.key ∉ (bs.map fun b => (b.key, b.value)).map Prod.fst := by
      rw [List.map_map]
      exact fun hmem => hnew b.key hmem b.key List.mem_cons_self rfl
    have hgiven := Binding.given_of_plain hraw hb environment bs
    rw [List.foldl_append, List.map_append, List.map_singleton, hraw, ← hgiven,
      ← Keyed.place_of_notMem hkey, ← ih hdistinct fun b' hb' => hplain b' (by simp [hb'])]
    rfl

end ModelProvision.DotEnv
