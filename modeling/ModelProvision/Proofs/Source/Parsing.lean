import Mathlib.Data.List.TakeWhile
import ModelProvision.Proofs.Source

/-!
# Parsing claim URIs

A claim and a path in it are written behind the scheme as the claim, a slash and the path, or as the
claim alone. **`parse_cut`** says that parsing is the way back: a URI is refused exactly when no claim
stands where one has to, and otherwise what was written is what is read.

* **`Remains`** is what has to be cut: the URI without *one* scheme in front. A second scheme is part
  of the path, and a URI that does not start with the scheme remains as it is.
* **`Cuts`** is the way a claim and a path are written. It knows of one slash, the first one, where
  the parser splits at all of them and puts the pieces behind the first together again. A text is
  written so in one way only (`Cuts.eq_head`), because the claim holds no slash.
-/

namespace ModelProvision

open Slash (slash head tail)

/-! ## Texts without a slash -/

namespace Slash

/-- A text without a slash is all before the first one … -/
theorem head_of_not_mem {t : Text} (h : slash ∉ t) : head t = t := by
  unfold head
  rw [List.takeWhile_eq_self_iff]
  intro p hp
  simpa using fun hslash : p = slash => h (hslash ▸ hp)

/-- … and nothing is behind it. -/
theorem tail_of_not_mem {t : Text} (h : slash ∉ t) : tail t = [] := by
  unfold tail
  rw [List.dropWhile_eq_nil_iff.mpr, List.drop_nil]
  intro p hp
  simpa using fun hslash : p = slash => h (hslash ▸ hp)

end Slash

namespace ClaimPath

variable {uri rest : Text} {path : ClaimPath}

/-! ## What remains of a URI -/

/-- `rest` is the URI without one claim scheme in front of it, if it starts with that. -/
def Remains (uri rest : Text) : Prop :=
  uri = Reserved.claimScheme ++ rest ∨ rest = uri ∧ ∀ more, uri ≠ Reserved.claimScheme ++ more

/-- The relation is what the parser computes. -/
theorem remains_iff : Remains uri rest ↔ remainder uri = rest := by
  unfold Remains remainder
  cases hafter : afterScheme? uri with
  | some more =>
    obtain rfl := afterScheme?_eq_some_iff.mp hafter
    simp
  | none =>
    -- the parser finds no scheme only where there is none
    have hplain : ∀ more, uri ≠ Reserved.claimScheme ++ more := by
      intro more huri
      rw [afterScheme?_eq_some_iff.mpr huri] at hafter
      exact absurd hafter (by simp)
    simp [hplain, eq_comm]

/-! ## How a claim and a path are written -/

/-- `rest` is the claim with the path behind a slash, or the claim alone. -/
structure Cuts (rest : Text) (path : ClaimPath) : Prop where
  named : path.claim ≠ []
  whole : slash ∉ path.claim
  alone : slash ∉ rest → rest = path.claim ∧ path.subPath = []
  below : slash ∈ rest → rest = path.claim ++ slash :: path.subPath

/-- Writing a path behind the slash fits … -/
theorem cuts_below {claim : Text} (hnamed : claim ≠ []) (hwhole : slash ∉ claim) (sub : Text) :
    Cuts (claim ++ slash :: sub) ⟨claim, sub⟩ where
  named := hnamed
  whole := hwhole
  alone h := absurd (by simp) h
  below _ := rfl

/-- … and so does leaving it out. -/
theorem cuts_alone {claim : Text} (hnamed : claim ≠ []) (hwhole : slash ∉ claim) :
    Cuts claim ⟨claim, []⟩ where
  named := hnamed
  whole := hwhole
  alone _ := ⟨rfl, rfl⟩
  below h := absurd h hwhole

/-- The cut at the first slash fits. -/
theorem cuts_head_tail (h : head rest ≠ []) : Cuts rest ⟨head rest, tail rest⟩ where
  named := h
  whole := Slash.slash_not_mem_head rest
  alone hno := ⟨(Slash.head_of_not_mem hno).symm, Slash.tail_of_not_mem hno⟩
  below hslash := by
    have hcut := Slash.head_append_tail rest
    rwa [if_pos hslash] at hcut

/-- Nothing but the cut at the first slash fits, since a claim holds no slash. -/
theorem Cuts.eq_head (h : Cuts rest path) : path = ⟨head rest, tail rest⟩ := by
  obtain ⟨claim, sub⟩ := path
  by_cases hslash : slash ∈ rest
  · rw [h.below hslash, Slash.head_append_slash h.whole, Slash.tail_append_slash h.whole]
  · obtain ⟨hclaim, hsub⟩ := h.alone hslash
    rw [Slash.head_of_not_mem hslash, Slash.tail_of_not_mem hslash, hclaim, ← hsub]

/-! ## Parsing -/

/-- Parsing by what remains of the URI. -/
theorem parse_of_remains (h : Remains uri rest) :
    parse uri =
      if head rest = [] then .error (.invalidUri uri .null) else .ok ⟨head rest, tail rest⟩ := by
  rw [parse_eq, remains_iff.mp h]

/-- Whatever a text is cut into is what it is parsed as. -/
theorem parse_of_cuts (h : Remains uri rest) (hcuts : Cuts rest path) : parse uri = .ok path := by
  obtain rfl := hcuts.eq_head
  rw [parse_of_remains h, if_neg hcuts.named]

/-- **Parsing undoes writing, and refuses what names no claim.** -/
theorem parse_cut (h : Remains uri rest) :
    (parse uri = .error (.invalidUri uri .null) ↔ rest = [] ∨ ∃ more, rest = slash :: more) ∧
      (¬ (rest = [] ∨ ∃ more, rest = slash :: more) →
        ∃ path, parse uri = .ok path ∧ Cuts rest path) ∧
      ∀ claim sub, claim ≠ [] → slash ∉ claim →
        parse (Reserved.claimScheme ++ (claim ++ slash :: sub)) = .ok ⟨claim, sub⟩ ∧
          parse (Reserved.claimScheme ++ claim) = .ok ⟨claim, []⟩ := by
  rw [← Slash.head_eq_nil_iff]
  refine ⟨?_, ?_, ?_⟩
  · rw [parse_of_remains h]
    split
    · next hnil => simp [hnil]
    · next hnamed => simp [hnamed]
  · intro hnamed
    have hcuts : Cuts rest ⟨head rest, tail rest⟩ := cuts_head_tail hnamed
    exact ⟨_, parse_of_cuts h hcuts, hcuts⟩
  · intro claim sub hnamed hwhole
    constructor
    · exact parse_of_cuts (.inl rfl) (cuts_below hnamed hwhole sub)
    · exact parse_of_cuts (.inl rfl) (cuts_alone hnamed hwhole)

/-- The scheme is taken off once, and everything behind the first slash is path. -/
theorem parse_cut_nested :
    (Remains "pvc://models/pvc://v1//" "models/pvc://v1//" ∧
      parse "pvc://models/pvc://v1//" = .ok ⟨"models", "pvc://v1//"⟩) ∧
    (Remains "pvc:///v1" "/v1" ∧
      parse "pvc:///v1" = .error (.invalidUri (.string "pvc:///v1") .null)) ∧
    (Remains "models/v1" "models/v1" ∧
      ∃ path, parse "models/v1" = .ok path ∧ Cuts "models/v1" path) := by
  have hnested : Remains "pvc://models/pvc://v1//" "models/pvc://v1//" := .inl rfl
  have hnameless : Remains "pvc:///v1" "/v1" := .inl rfl
  have hplain : Remains "models/v1" "models/v1" := remains_iff.mpr rfl
  refine ⟨⟨hnested, ?_⟩, ⟨hnameless, ?_⟩, ⟨hplain, ?_⟩⟩
  · exact ((parse_cut hnested).2.2 "models" "pvc://v1//" (by decide) (by decide)).1
  · exact (parse_cut hnameless).1.mpr (.inr ⟨"v1", rfl⟩)
  · apply (parse_cut hplain).2.1
    rw [← Slash.head_eq_nil_iff]
    decide

end ClaimPath

end ModelProvision
