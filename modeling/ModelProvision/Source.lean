import ModelProvision.Fault
import ModelProvision.Reserved
import ModelProvision.Text.Slash

/-!
# Source URIs

A source URI that starts with the scheme `pvc://` locates a model inside a persistent volume claim:
the claim's name reaches up to the first slash, and the rest is the path inside the claim
(`ClaimPath.parse_eq`). Every other URI is handed to the init container as it is.
-/

namespace ModelProvision

/-- A place inside a persistent volume claim. -/
structure ClaimPath where
  claim : Text
  subPath : Text
  deriving DecidableEq, Repr

namespace ClaimPath

/-- What follows the claim scheme in a URI that starts with it. -/
def afterScheme? (uri : Text) : Option (Text) :=
  Reserved.claimScheme.isPrefixOf? uri

/-- Whether a URI starts with the claim scheme. -/
def isClaimUri (uri : Text) : Bool := (afterScheme? uri).isSome

/-- A URI without the claim scheme, if it starts with it. -/
def remainder (uri : Text) : Text := (afterScheme? uri).getD uri

/-- The claim and the path that a URI names: the first piece, which may not be empty, and the others
put together again. -/
def parse (uri : Text) : Except Fault ClaimPath :=
  let (claim, pieces) := Slash.split (remainder uri)
  if claim.isEmpty then .error (.invalidUri uri .null) else .ok ⟨claim, Slash.joined pieces⟩

/-- Splitting at every slash and putting together what follows the first one is cutting there. -/
theorem parse_eq (uri : Text) :
    parse uri =
      if Slash.head (remainder uri) = [] then .error (.invalidUri uri .null)
      else .ok ⟨Slash.head (remainder uri), Slash.tail (remainder uri)⟩ := by
  rw [← Slash.split_fst, ← Slash.joined_split_snd]
  simp only [parse, List.isEmpty_iff]

end ClaimPath

/-- Where a model comes from. -/
inductive Source where
  /-- A location that the init container resolves itself. -/
  | direct (uri : Text)
  /-- A path inside a claim that is mounted for the init container. -/
  | claim (uri : Text) (path : ClaimPath)
  deriving DecidableEq, Repr

/-- The source that a URI names. -/
def Source.ofUri (uri : Text) : Except Fault Source :=
  if ClaimPath.isClaimUri uri then do
    let path ← ClaimPath.parse uri
    return .claim uri path
  else .ok (.direct uri)

/-- The source that a value names; only a text has a scheme to start with. -/
def Source.ofValue (uri : Json) : Except Fault Source :=
  match uri.asText "startswith" with
  | .error fault => .error fault
  | .ok uri => Source.ofUri uri

/-- A path of a claim below the directory where the claim is mounted. -/
def rewriteBelow (mountPath subPath : Text) : Text :=
  Slash.join mountPath subPath

end ModelProvision
