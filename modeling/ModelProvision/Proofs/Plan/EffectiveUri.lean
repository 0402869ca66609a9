import ModelProvision.Proofs.Source.Parsing
import ModelProvision.Proofs.Text.Segments

/-!
# The URI that a plan hands on

A URI without the claim scheme is handed on as it is, and one that locates a path in a claim becomes
that path below the mount of the claim. **`ofValues_sourceUri`** says what this does to the path and
when two claim URIs become one: when their paths differ in leading slashes only, whatever their
claims are.

What has to be known of joining is in the module on segments; here it is carried over to plans, for
which `ofValues_of_locates` and `ofValues_of_direct` say which plan a URI has.
-/

namespace ModelProvision

open Slash (slash segments Doubled WithoutLeading WithoutTrailing)

/-- A URI with the claim scheme that is cut into this claim and this path. -/
def ClaimPath.Locates (uri : Text) (path : ClaimPath) : Prop :=
  ∃ rest, uri = Reserved.claimScheme ++ rest ∧ ClaimPath.Cuts rest path

namespace Plan

variable {uri localPath claimPath : Text} {path : ClaimPath} {plan : Plan}

/-! ## The plan of a URI -/

/-- The plan of a URI that locates a path in a claim … -/
theorem ofValues_of_locates (h : ClaimPath.Locates uri path) (localPath claimPath : Text) :
    ofValues uri localPath claimPath = .ok (ofSource ⟨localPath, claimPath⟩ (.claim uri path)) := by
  obtain ⟨rest, rfl, hcuts⟩ := h
  have hsource : Source.ofUri (Reserved.claimScheme ++ rest) =
      .ok (.claim (Reserved.claimScheme ++ rest) path) := by
    obtain rfl := hcuts.eq_head
    rw [Source.ofUri_claim, if_neg hcuts.named]
  show (Source.ofUri (Reserved.claimScheme ++ rest) >>= _) = _
  rw [hsource]
  rfl

/-- … and of one that has no scheme to take off. -/
theorem ofValues_of_direct (h : ∀ rest, uri ≠ Reserved.claimScheme ++ rest)
    (localPath claimPath : Text) :
    ofValues uri localPath claimPath = .ok (ofSource ⟨localPath, claimPath⟩ (.direct uri)) := by
  show (Source.ofUri uri >>= _) = _
  rw [Source.ofUri_direct h]
  rfl

/-- A URI with the scheme that is planned for locates some path. -/
theorem exists_locates (h : ofValues uri localPath claimPath = .ok plan) {rest : Text}
    (huri : uri = Reserved.claimScheme ++ rest) : ∃ path, ClaimPath.Locates uri path := by
  subst huri
  -- a URI that names no claim would not have been planned for
  by_cases hhead : Slash.head rest = []
  · change (Source.ofUri (Reserved.claimScheme ++ rest) >>= _) = _ at h
    rw [Source.ofUri_claim, if_pos hhead] at h
    exact absurd h (by simp [bind, Except.bind])
  · exact ⟨_, rest, rfl, ClaimPath.cuts_head_tail hhead⟩

/-! ## The effective URI -/

/-- What the effective URI of a claim is made of: the mount and the path in the claim meet at one
slash. -/
structure Rewrites (mountPath subPath effective : Text) : Prop where
  segments_eq : segments effective = segments mountPath ++ segments subPath
  meet : ∃ base below, WithoutTrailing mountPath base ∧ WithoutLeading subPath below ∧
    effective = base ++ slash :: below ∧ (Doubled effective → Doubled base ∨ Doubled below)

/-- Joining loses no segment and adds no doubled separator where the two meet. -/
theorem rewrites_join (mountPath subPath : Text) :
    Rewrites mountPath subPath (Slash.join mountPath subPath) := by
  have hbase : WithoutTrailing mountPath (Slash.stripTrailing mountPath) :=
    Slash.withoutTrailing_iff.mpr rfl
  have hbelow : WithoutLeading subPath (Slash.stripLeading subPath) :=
    Slash.withoutLeading_iff.mpr rfl
  refine ⟨Slash.segments_join mountPath subPath, _, _, hbase, hbelow, rfl, ?_⟩
  exact Slash.doubled_append_slash hbase.2 hbelow.2

/-- Slashes where the mount and the path meet make no difference. -/
theorem sourceUri_of_slashes (h : ClaimPath.Locates uri path) {path' : ClaimPath} {n : Nat}
    (hsub : path.subPath = List.replicate n slash ++ path'.subPath) (localPath claimPath : Text)
    (m : Nat) :
    ∃ plan, ofValues uri localPath (claimPath ++ List.replicate m slash : Text) = .ok plan ∧
      plan.sourceUri = Slash.join claimPath path'.subPath := by
  refine ⟨_, ofValues_of_locates h _ _, ?_⟩
  show Slash.join (claimPath ++ List.replicate m slash) path.subPath = _
  rw [hsub, Slash.join_replicate]

/-- **What becomes of a URI.** It stays as it is, or the path that it locates is put below the mount,
whatever slashes stand where the two meet. Nothing but these gets lost. -/
theorem ofValues_sourceUri (h : ofValues uri localPath claimPath = .ok plan) :
    ((∀ rest, uri ≠ Reserved.claimScheme ++ rest) → plan.sourceUri = uri) ∧
    ((∃ rest, uri = Reserved.claimScheme ++ rest) →
      ∃ path, ClaimPath.Locates uri path ∧ Rewrites claimPath path.subPath plan.sourceUri ∧
        (∀ (uri' localPath' : Text) path' m n, ClaimPath.Locates uri' path' →
          path'.subPath = List.replicate n slash ++ path.subPath →
          ∃ plan', ofValues uri' localPath' (claimPath ++ List.replicate m slash : Text) = .ok plan' ∧
            plan'.sourceUri = plan.sourceUri) ∧
        ∀ (uri' localPath' : Text) path', ClaimPath.Locates uri' path' →
          ∃ plan', ofValues uri' localPath' claimPath = .ok plan' ∧
            (plan'.sourceUri = plan.sourceUri ↔
              ∃ below, WithoutLeading path'.subPath below ∧ WithoutLeading path.subPath below)) := by
  constructor
  · intro hdirect
    rw [ofValues_of_direct hdirect, Except.ok.injEq] at h
    rw [← h]
    rfl
  · rintro ⟨rest, huri⟩
    obtain ⟨path, hlocates⟩ := exists_locates h huri
    rw [ofValues_of_locates hlocates, Except.ok.injEq] at h
    have heffective : plan.sourceUri = Slash.join claimPath path.subPath := by
      rw [← h]
      rfl
    -- all that is left is about joining, whatever the claims are
    rw [heffective]
    refine ⟨path, hlocates, rewrites_join claimPath path.subPath, ?_, ?_⟩
    · intro uri' localPath' path' m n hlocates' hsub
      exact sourceUri_of_slashes hlocates' hsub localPath' claimPath m
    · intro uri' localPath' path' hlocates'
      exact ⟨_, ofValues_of_locates hlocates' localPath' claimPath, Slash.join_inj_iff⟩

/-- Slashes are dropped where mount and path meet, and kept inside of the path. -/
theorem ofValues_sourceUri_doubled :
    ∃ plan, ofValues (.string "pvc://models//v1//a/") (.string "/mnt/models")
        (.string "/mnt/pvc//") = .ok plan ∧
      plan.sourceUri = "/mnt/pvc/v1//a/" ∧ Doubled plan.sourceUri ∧
      segments plan.sourceUri = ["mnt", "pvc", "v1", "a"] := by
  have hlocates : ClaimPath.Locates "pvc://models//v1//a/" ⟨"models", "/v1//a/"⟩ :=
    ⟨("models" : Text) ++ slash :: ("/v1//a/" : Text), rfl,
      ClaimPath.cuts_below (by decide) (by decide) _⟩
  have hplan := ofValues_of_locates hlocates "/mnt/models" "/mnt/pvc//"
  refine ⟨_, hplan, rfl, ⟨"/mnt/pvc/v1", "a/", rfl⟩, ?_⟩
  obtain ⟨path, ⟨rest, huri, hcuts⟩, hrewrites, -, -⟩ :=
    (ofValues_sourceUri hplan).2 ⟨"models//v1//a/", rfl⟩
  have hcut : Reserved.claimScheme ++ ("models//v1//a/" : Text) = Reserved.claimScheme ++ rest := huri
  obtain rfl := List.append_cancel_left hcut
  rw [hrewrites.segments_eq, hcuts.eq_head]
  decide

end Plan

end ModelProvision
