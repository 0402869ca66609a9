import Mathlib.Data.List.Infix
import ModelProvision.Plan

/-!
# Which source URIs name a source

A URI that starts with the claim scheme has to go on with the name of a claim. The URIs that do not
are `Source.Malformed`, which is said without any function that cuts a URI up:

* **`afterScheme?_eq_some_iff`** and **`head_eq_nil_iff`** turn the two cuts into equations between
  texts;
* **`ofUri_eq_error_iff`**: exactly the malformed URIs are refused, each with the fault that carries
  it. Where a URI with the claim scheme is cut is said by `ofUri_claim`, and any other URI is handed
  on as it is (`ofUri_direct`).
-/

namespace ModelProvision

/-! ## The two cuts -/

/-- Taking the scheme off is the way back from putting it in front. -/
theorem ClaimPath.afterScheme?_eq_some_iff {uri rest : Text} :
    afterScheme? uri = some rest ↔ uri = Reserved.claimScheme ++ rest := by
  rw [afterScheme?, List.isPrefixOf?_eq_some_iff_append_eq]
  exact eq_comm

/-- Nothing stands before the first slash where the text is empty or starts with it. -/
theorem Slash.head_eq_nil_iff {t : Text} :
    head t = [] ↔ t = [] ∨ ∃ more, t = slash :: more := by
  cases t with
  | nil => simp [head]
  | cons p t =>
    by_cases hp : p = slash
    · simp [head, hp]
    · simp [head, hp]

/-! ## Malformed URIs -/

namespace Source

/-- A URI with the claim scheme that names no claim: nothing follows the scheme, or a slash does. -/
def Malformed (uri : Text) : Prop :=
  ∃ rest, uri = Reserved.claimScheme ++ rest ∧ (rest = [] ∨ ∃ more, rest = Slash.slash :: more)

/-- The cuts decide it after all. -/
theorem malformed_iff {uri : Text} :
    Malformed uri ↔ ∃ rest ∈ ClaimPath.afterScheme? uri, Slash.head rest = [] := by
  simp only [Malformed, Option.mem_def, ClaimPath.afterScheme?_eq_some_iff, Slash.head_eq_nil_iff]

instance (uri : Text) : Decidable (Malformed uri) :=
  decidable_of_iff' _ malformed_iff

/-- A URI with the scheme is refused where no claim stands, and cut at the first slash otherwise. -/
theorem ofUri_claim (rest : Text) :
    ofUri (Reserved.claimScheme ++ rest) =
      if Slash.head rest = [] then .error (.invalidUri (Reserved.claimScheme ++ rest) .null)
      else .ok (.claim (Reserved.claimScheme ++ rest) ⟨Slash.head rest, Slash.tail rest⟩) := by
  have hafter : ClaimPath.afterScheme? (Reserved.claimScheme ++ rest) = some rest :=
    ClaimPath.afterScheme?_eq_some_iff.mpr rfl
  have hclaim : ClaimPath.isClaimUri (Reserved.claimScheme ++ rest) = true := by
    rw [ClaimPath.isClaimUri, hafter, Option.isSome_some]
  have hrest : ClaimPath.remainder (Reserved.claimScheme ++ rest) = rest := by
    rw [ClaimPath.remainder, hafter, Option.getD_some]
  rw [ofUri, if_pos hclaim, ClaimPath.parse_eq, hrest]
  split <;> rfl

/-- A URI without the scheme is its own source. -/
theorem ofUri_direct {uri : Text} (h : ∀ rest, uri ≠ Reserved.claimScheme ++ rest) :
    ofUri uri = .ok (.direct uri) := by
  have hafter : ClaimPath.afterScheme? uri = none := by
    rw [Option.eq_none_iff_forall_ne_some]
    intro rest hrest
    exact h rest (ClaimPath.afterScheme?_eq_some_iff.mp hrest)
  have hdirect : ¬ ClaimPath.isClaimUri uri = true := by
    rw [ClaimPath.isClaimUri, hafter]
    simp
  rw [ofUri, if_neg hdirect]

/-- **Which URIs are refused.** Exactly the malformed ones, each with the fault that carries it. -/
theorem ofUri_eq_error_iff {uri : Text} {fault : Fault} :
    ofUri uri = .error fault ↔ Malformed uri ∧ fault = .invalidUri uri .null := by
  by_cases hscheme : ∃ rest, uri = Reserved.claimScheme ++ rest
  · obtain ⟨rest, rfl⟩ := hscheme
    -- behind the scheme only the part before the first slash counts
    have hmalformed : Malformed (Reserved.claimScheme ++ rest) ↔ Slash.head rest = [] := by
      simp [Malformed, Slash.head_eq_nil_iff]
    rw [ofUri_claim, hmalformed]
    split
    · next hempty => simp [hempty, eq_comm]
    · next hnamed => simp [hnamed]
  · have hscheme : ∀ rest, uri ≠ Reserved.claimScheme ++ rest := not_exists.mp hscheme
    rw [ofUri_direct hscheme]
    constructor
    · intro h
      exact absurd h (by simp)
    · rintro ⟨⟨rest, hrest, -⟩, -⟩
      exact absurd hrest (hscheme rest)

end Source

/-! ## The plan of a URI -/

/-- Only the source can be refused; a plan is made of any. -/
theorem Plan.ofUri_eq_map (paths : MountPaths) (uri : Text) :
    Plan.ofUri paths uri = (Source.ofUri uri).map (Plan.ofSource paths) := by
  rw [Plan.ofUri]
  cases Source.ofUri uri <;> rfl

/-- Where there is a plan, its URI named a source. -/
theorem Plan.not_malformed_of_ofUri {paths : MountPaths} {uri : Text} {plan : Plan}
    (h : Plan.ofUri paths uri = .ok plan) : ¬ Source.Malformed uri := by
  intro hmalformed
  rw [Plan.ofUri_eq_map, Source.ofUri_eq_error_iff.mpr ⟨hmalformed, rfl⟩] at h
  exact absurd h (by simp [Except.map])

end ModelProvision
