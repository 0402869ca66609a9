import ModelProvision.Text.CodePoint

/-!
# Reserved identifiers

The names a provisioned pod and its controller agree on. The idempotency check looks for the name of
the init container, and mounts find their volumes by name, so these never change between releases.
-/

namespace ModelProvision.Reserved

/-! ### The init container -/

/-- Name of the init container that fetches the model. -/
def initContainerName : Text := "model-initializer"

/-- Image the init container runs when the settings name no other. -/
def initContainerImage : Text := "gcr.io/kfserving/model-initializer"

/-- Version of that image when the settings name no other. -/
def initContainerVersion : Text := "latest"

/-! ### The scratch volume -/

/-- Volume shared by the init container, which fills it, and the user container, which reads it. -/
def scratchVolumeName : Text := "kfserving-provision-location"

/-- Where both containers mount the scratch volume by default. -/
def localMountPath : Text := "/mnt/models"

/-! ### Sources held by a volume claim -/

/-- A source URI that starts so names a persistent volume claim. -/
def claimScheme : Text := "pvc://"

/-- Volume that refers to the claim of the source. -/
def claimVolumeName : Text := "kfserving-pvc-source"

/-- Where the init container mounts that claim by default. -/
def claimMountPath : Text := "/mnt/pvc"

/-! ### The pod and the controller -/

/-- Container that serves the model when the caller selects none. -/
def userContainerName : Text := "user-container"

/-- Namespace the controller runs in by default. -/
def controllerNamespace : Text := "seldon-system"

/-- Config map that holds the controller's configuration by default. -/
def configMapName : Text := "seldon-config"

/-- Entry of that config map that holds the credentials document. -/
def credentialsEntry : Text := "credentials"

end ModelProvision.Reserved
