import ModelProvision.Credentials.Load

/-!
# One step of reading and loading

What reading comes to by the answer of the cluster, and what loading comes to by what was read. The
proofs about results, effects and log entries start from these.
-/

namespace ModelProvision.Credentials

/-- What the cluster answers for the configured namespace and name. -/
def configMap (cluster : Cluster) (s : Settings) : Except LookupFailure ConfigMap :=
  cluster.lookup (s.value .controllerNamespace) (s.value .configMapName)

/-- The configured config map is found, with this text under the credentials entry. -/
def Holds (cluster : Cluster) (s : Settings) (text : Text) : Prop :=
  ∃ m, configMap cluster s = .ok m ∧ m.entry? Reserved.credentialsEntry = some text

/-! ## Reading -/

section Read

variable {cluster : Cluster} {s : Settings}

/-- A refused lookup is reported with its cause, and its status is said … -/
theorem read_of_refused {status reason : Json}
    (h : configMap cluster s = .error (.refused status reason)) :
    (∃ text, (read cluster s).result = .error (faultAt s text (some .lookup))) ∧
      (read cluster s).entries = [refusedEntry s status] := by
  rw [configMap] at h
  simp only [read, h]
  exact ⟨⟨_, rfl⟩, trivial⟩

/-- … a lookup that fails passes its fault on … -/
theorem read_of_failed {fault : Fault} (h : configMap cluster s = .error (.failed fault)) :
    (read cluster s).result = .error fault ∧ (read cluster s).entries = [] := by
  rw [configMap] at h
  simp only [read, h]
  exact ⟨trivial, trivial⟩

/-- … and of a map that is found the result depends on its entry, with nothing said … -/
theorem read_of_found {m : ConfigMap} (h : configMap cluster s = .ok m) :
    (read cluster s).result = ofConfigMap s m ∧ (read cluster s).entries = [] := by
  rw [configMap] at h
  simp only [read, h]
  exact ⟨trivial, trivial⟩

/-- … which is decoded where there is one. -/
theorem read_of_holds {text : Text} (h : Holds cluster s text) :
    (read cluster s).result = decode s text := by
  obtain ⟨m, hfound, hentry⟩ := h
  rw [(read_of_found hfound).1, ofConfigMap, hentry]

/-- Only a cluster whose lookups fail has a lookup that fails. -/
theorem eq_failing_of_failed {fault : Fault} (h : configMap cluster s = .error (.failed fault)) :
    cluster = .failing fault := by
  rw [configMap] at h
  cases cluster with
  | holding maps =>
    simp only [Cluster.lookup] at h
    split at h <;> simp at h
  | refusing status reason => simp [Cluster.lookup] at h
  | failing fault' =>
    simp only [Cluster.lookup, Except.error.injEq, LookupFailure.failed.injEq] at h
    rw [h]

/-- A document was read from a map that was found. -/
theorem found_of_ok {document : CredentialsDocument} (h : (read cluster s).result = .ok document) :
    ∃ m, configMap cluster s = .ok m ∧ ofConfigMap s m = .ok document := by
  cases hlookup : configMap cluster s with
  | ok m => exact ⟨m, rfl, (read_of_found hlookup).1.symm.trans h⟩
  | error failure =>
    have hfault : ∃ fault, (read cluster s).result = .error fault := by
      cases failure with
      | refused status reason =>
        obtain ⟨text, hresult⟩ := (read_of_refused hlookup).1
        exact ⟨_, hresult⟩
      | failed fault => exact ⟨fault, (read_of_failed hlookup).1⟩
    obtain ⟨fault, hfault⟩ := hfault
    rw [h] at hfault
    exact absurd hfault (by simp)

end Read

/-! ## Loading -/

section Load

variable {α : Type} {cluster : Cluster} (factory : Factory α) {s : Settings}

/-- Where nothing is read the factory is not called … -/
theorem load_of_error {fault : Fault} (h : (read cluster s).result = .error fault) :
    (load cluster factory s).result = .error fault ∧
      (load cluster factory s).effects = (read cluster s).effects ∧
      (load cluster factory s).entries = (read cluster s).entries := by
  simp only [load, h]
  exact ⟨trivial, trivial, trivial⟩

/-- … and where a document is, the factory decides. -/
theorem load_of_document {document : CredentialsDocument}
    (h : (read cluster s).result = .ok document) :
    (load cluster factory s).result = factory cluster document ∧
      (load cluster factory s).effects = (read cluster s).effects ++ [.factoryCall document] ∧
      (load cluster factory s).entries = [loadedEntry s document] := by
  obtain ⟨m, hfound, -⟩ := found_of_ok h
  have hquiet := (read_of_found hfound).2
  simp only [load, h, hquiet]
  exact ⟨trivial, trivial, rfl⟩

end Load

end ModelProvision.Credentials
